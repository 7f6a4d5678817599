import Redisson.Dialogue

/-! Pre- and postconditions of dialogues. A ghost state notes the answers of a run, and may
rule answers out; the conditions speak of it and never of the states of the answerer. -/

namespace Dialogue

variable {Q σ γ α β : Type} {A : Q → Type}

structure Ghost (Q : Type) (A : Q → Type) (γ : Type) where
  note : γ → (q : Q) → A q → γ
  possible : γ → (q : Q) → A q → Prop

/-- However the requests are answered, the dialogue ends with `post`. -/
def wp (G : Ghost Q A γ) (post : γ → α → Prop) : Dialogue Q A α → γ → Prop
  | done a, g => post g a
  | ask q k, g => ∀ a, G.possible g q a → (k a).wp G post (G.note g q a)

/-- What an answerer keeps of the ghost state, and others with it. -/
structure Ghost.Sound (G : Ghost Q A γ) (answer : (q : Q) → σ → A q × σ) (others : Nat → σ → σ)
    (R : γ → σ → Prop) : Prop where
  possible : ∀ g q s, R g s → G.possible g q (answer q s).1
  answered : ∀ g q s, R g s → R (G.note g q (answer q s).1) (answer q s).2
  others : ∀ i g s, R g s → R g (others i s)

def Ghost.after (G : Ghost Q A γ) (answer : (q : Q) → σ → A q × σ) (g : γ) (x : Asked Q σ) : γ :=
  G.note g x.request (answer x.request x.state).1

variable {G : Ghost Q A γ} {g : γ}

theorem wp_bind {post : γ → β → Prop} (d : Dialogue Q A α) (f : α → Dialogue Q A β) :
    (d.bind f).wp G post g ↔ d.wp G (fun g a => (f a).wp G post g) g := by
  induction d generalizing g with
  | done a => exact Iff.rfl
  | ask q k ih => exact forall_congr' fun a => imp_congr_right fun _ => ih a

/-- The postcondition holds at the end of every run, of what its trace has noted. -/
theorem wp_run {answer : (q : Q) → σ → A q × σ} {others : Nat → σ → σ} {R : γ → σ → Prop}
    {post : γ → α → Prop} {d : Dialogue Q A α} {s : σ} (hG : G.Sound answer others R) (hR : R g s)
    (h : d.wp G post g) :
    post ((d.runAmid answer others s).trace.foldl (G.after answer) g)
        (d.runAmid answer others s).value ∧
      R ((d.runAmid answer others s).trace.foldl (G.after answer) g)
        (d.runAmid answer others s).state := by
  induction d generalizing g others s with
  | done a => exact ⟨h, hR⟩
  | ask q k ih =>
    have hfound := hG.others 0 g s hR
    have hrest : G.Sound answer (fun i => others (i + 1)) R :=
      ⟨hG.possible, hG.answered, fun i => hG.others (i + 1)⟩
    exact ih (answer q (others 0 s)).1 hrest (hG.answered g q _ hfound)
      (h _ (hG.possible g q _ hfound))

end Dialogue
