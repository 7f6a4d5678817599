import Redisson.DialogueLogic
import Redisson.LabelledRuns

/-! Tasks that each run a dialogue on one state, one request at a time in any order, while
others act on the state. The conditions of a task speak of a ghost state that may drift between
its requests, and say which requests it makes. -/

namespace Dialogue

variable {Q σ γ α β ε : Type} {A : Q → Type}

structure Contract (Q : Type) (A : Q → Type) (γ : Type) extends Ghost Q A γ where
  drift : γ → γ → Prop
  allowed : γ → Q → Prop

/-- However the requests are answered and the ghost state drifts, each request is allowed, and
the dialogue ends with `post`. -/
def meets (C : Contract Q A γ) (post : γ → α → Prop) : Dialogue Q A α → γ → Prop
  | done a, g => ∀ g', C.drift g g' → post g' a
  | ask q k, g => ∀ g', C.drift g g' → C.allowed g' q ∧
      ∀ a, C.possible g' q a → (k a).meets C post (C.note g' q a)

section Rules

variable {C : Contract Q A γ} {post : γ → α → Prop} {g g' : γ} {d : Dialogue Q A α}

theorem meets_drift (htrans : ∀ a b c, C.drift a b → C.drift b c → C.drift a c)
    (h : d.meets C post g) (hg : C.drift g g') : d.meets C post g' := by
  cases d with
  | done a => exact fun g'' hg' => h g'' (htrans _ _ _ hg hg')
  | ask q k => exact fun g'' hg' => h g'' (htrans _ _ _ hg hg')

theorem meets_bind {post : γ → β → Prop} (hrefl : ∀ a, C.drift a a) {f : α → Dialogue Q A β}
    (h : d.meets C (fun g a => (f a).meets C post g) g) : (d.bind f).meets C post g := by
  induction d generalizing g with
  | done a => exact h g (hrefl g)
  | ask q k ih => exact fun g' hg => ⟨(h g' hg).1, fun a ha => ih a ((h g' hg).2 a ha)⟩

theorem meets_imp {post' : γ → α → Prop} (hpost : ∀ g a, post g a → post' g a)
    (h : d.meets C post g) : d.meets C post' g := by
  induction d generalizing g with
  | done a => exact fun g' hg => hpost g' a (h g' hg)
  | ask q k ih => exact fun g' hg => ⟨(h g' hg).1, fun a ha => ih a ((h g' hg).2 a ha)⟩

end Rules

end Dialogue

namespace DialogueTasks

open Dialogue LabelledRuns

variable {Q σ γ α ε : Type} {A : Q → Type}

structure Tasks (Q : Type) (A : Q → Type) (α σ : Type) where
  rest : Nat → Dialogue Q A α
  asked : Nat → List (Asked Q σ)
  state : σ

inductive Move (ε : Type)
  | act (t : Nat)
  | outside (e : ε)

def Tasks.start (d : Nat → Dialogue Q A α) (s : σ) : Tasks Q A α σ := ⟨d, fun _ => [], s⟩

section Step

variable (answer : (q : Q) → σ → A q × σ) (effect : ε → σ → σ)

def Tasks.proceed (m : Tasks Q A α σ) (t : Nat) (q : Q) (k : A q → Dialogue Q A α) :
    Tasks Q A α σ :=
  ⟨Function.update m.rest t (k (answer q m.state).1),
    Function.update m.asked t (m.asked t ++ [⟨q, m.state⟩]), (answer q m.state).2⟩

def step (m : Tasks Q A α σ) : Move ε → Option (Tasks Q A α σ)
  | .act t =>
    match m.rest t with
    | .done _ => none
    | .ask q k => some (m.proceed answer t q k)
  | .outside e => some { m with state := effect e m.state }

inductive Step (m : Tasks Q A α σ) : Move ε → Tasks Q A α σ → Prop
  | act {t : Nat} {q : Q} {k : A q → Dialogue Q A α} (hk : m.rest t = .ask q k) :
      Step m (.act t) (m.proceed answer t q k)
  | outside (e : ε) : Step m (.outside e) { m with state := effect e m.state }

end Step

variable {answer : (q : Q) → σ → A q × σ} {effect : ε → σ → σ}

theorem Step.of_step {m m' : Tasks Q A α σ} {x : Move ε} (h : step answer effect m x = some m') :
    Step answer effect m x m' := by
  cases x with
  | act t =>
    simp only [step] at h
    split at h
    · cases h
    · next q k hk => cases h; exact .act hk
  | outside e => cases h; exact .outside e

theorem Step.mem_asked {m m' : Tasks Q A α σ} {x : Move ε} {u : Nat} {y : Asked Q σ}
    (h : Step answer effect m x m') (hy : y ∈ m.asked u) : y ∈ m'.asked u := by
  cases h with
  | @act t q k hk =>
    by_cases hut : u = t
    · subst hut
      simp [Tasks.proceed, hy]
    · simpa [Tasks.proceed, hut] using hy
  | outside e => exact hy

/-- What relates the ghost state of a task to its requests so far and to the state of all, kept
by its own requests and, up to drift, by what anybody else does. -/
structure Kept (C : Contract Q A γ) (answer : (q : Q) → σ → A q × σ) (effect : ε → σ → σ)
    (R : γ → List (Asked Q σ) → σ → Prop) : Prop where
  trans : ∀ a b c, C.drift a b → C.drift b c → C.drift a c
  refl : ∀ a, C.drift a a
  possible : ∀ g xs s q, R g xs s → C.possible g q (answer q s).1
  own : ∀ g xs s q, R g xs s → C.allowed g q →
    R (C.note g q (answer q s).1) (xs ++ [⟨q, s⟩]) (answer q s).2
  others : ∀ g xs s q, R g xs s → ∃ g', C.drift g g' ∧ R g' xs (answer q s).2
  outside : ∀ g xs s e, R g xs s → ∃ g', C.drift g g' ∧ R g' xs (effect e s)

section Runs

variable {C : Contract Q A γ} {R : γ → List (Asked Q σ) → σ → Prop} {post : γ → α → Prop}
  {m m' : Tasks Q A α σ}

/-- What a task has asked since `before`, with its ghost state and the rest of its dialogue. -/
def Meets (C : Contract Q A γ) (R : γ → List (Asked Q σ) → σ → Prop) (post : γ → α → Prop)
    (before : List (Asked Q σ)) (t : Nat) (m : Tasks Q A α σ) : Prop :=
  ∃ g xs, m.asked t = before ++ xs ∧ (m.rest t).meets C post g ∧ R g xs m.state

theorem Meets.step {before : List (Asked Q σ)} {t : Nat} {x : Move ε} (hC : Kept C answer effect R)
    (h : Meets C R post before t m) (hs : step answer effect m x = some m') :
    Meets C R post before t m' := by
  obtain ⟨g, xs, hasked, hmeets, hR⟩ := h
  cases Step.of_step hs with
  | @act u q k hk =>
    by_cases htu : t = u
    · subst htu
      rw [hk] at hmeets
      obtain ⟨hallowed, hrest⟩ := hmeets g (hC.refl g)
      refine ⟨_, xs ++ [⟨q, m.state⟩], ?_, ?_, hC.own g xs m.state q hR hallowed⟩
      · simp [Tasks.proceed, hasked]
      · simpa [Tasks.proceed] using hrest _ (hC.possible g xs m.state q hR)
    · obtain ⟨g', hdrift, hR'⟩ := hC.others g xs m.state q hR
      refine ⟨g', xs, ?_, ?_, hR'⟩
      · simp [Tasks.proceed, htu, hasked]
      · simpa [Tasks.proceed, htu] using meets_drift hC.trans hmeets hdrift
  | outside e =>
    obtain ⟨g', hdrift, hR'⟩ := hC.outside g xs m.state e hR
    exact ⟨g', xs, hasked, meets_drift hC.trans hmeets hdrift, hR'⟩

theorem Meets.of_run {t : Nat} {es : List (Move ε)} {g : γ} (hC : Kept C answer effect R)
    (hd : (m.rest t).meets C post g) (hR : R g [] m.state)
    (h : run (DialogueTasks.step answer effect) m es = some m') : Meets C R post (m.asked t) t m' :=
  run_invariant (fun _ _ _ hm hs => hm.step hC hs) ⟨g, [], (List.append_nil _).symm, hd, hR⟩ h

/-- A task that has asked for nothing has its whole dialogue ahead. -/
theorem rest_of_unasked {t : Nat} {es : List (Move ε)}
    (h : run (DialogueTasks.step answer effect) m es = some m') (hasked : m'.asked t = []) :
    m'.rest t = m.rest t := by
  have hinv : m'.asked t = [] → m'.rest t = m.rest t := by
    refine @run_invariant _ _ (DialogueTasks.step answer effect)
      (fun n => n.asked t = [] → n.rest t = m.rest t) _ _ _ (fun n x n' hn hs => ?_)
      (fun _ => rfl) h
    cases Step.of_step hs with
    | @act u q k hk =>
      intro hnone
      by_cases htu : t = u
      · subst htu
        simp [Tasks.proceed] at hnone
      · simp only [Tasks.proceed, Function.update_of_ne htu] at hnone ⊢
        exact hn hnone
    | outside e => exact hn
  exact hinv hasked

end Runs

end DialogueTasks
