/-! A computation that asks for one thing at a time and goes on with the answer. It can be run
by itself, or amid others who act on the state before each of its requests. -/

inductive Dialogue (Q : Type) (A : Q → Type) (α : Type)
  | done (a : α)
  | ask (q : Q) (k : A q → Dialogue Q A α)

namespace Dialogue

structure Asked (Q σ : Type) where
  request : Q
  state : σ

structure Outcome (Q σ α : Type) where
  trace : List (Asked Q σ)
  value : α
  state : σ

variable {Q σ τ α β : Type} {A : Q → Type}

def bind : Dialogue Q A α → (α → Dialogue Q A β) → Dialogue Q A β
  | done a, f => f a
  | ask q k, f => ask q fun answer => (k answer).bind f

def run (answer : (q : Q) → σ → A q × σ) : Dialogue Q A α → σ → α × σ
  | done a, s => (a, s)
  | ask q k, s => (k (answer q s).1).run answer (answer q s).2

def runAmid (answer : (q : Q) → σ → A q × σ) : Dialogue Q A α → (Nat → σ → σ) → σ → Outcome Q σ α
  | done a, _, s => ⟨[], a, s⟩
  | ask q k, others, s =>
    let found := others 0 s
    let rest := (k (answer q found).1).runAmid answer (fun i => others (i + 1)) (answer q found).2
    ⟨⟨q, found⟩ :: rest.trace, rest.value, rest.state⟩

variable {answer : (q : Q) → σ → A q × σ}

theorem run_bind (d : Dialogue Q A α) (f : α → Dialogue Q A β) (s : σ) :
    (d.bind f).run answer s = (f (d.run answer s).1).run answer (d.run answer s).2 := by
  induction d generalizing s with
  | done a => rfl
  | ask q k ih => exact ih _ _

theorem runAmid_bind (d : Dialogue Q A α) (f : α → Dialogue Q A β) (others : Nat → σ → σ) (s : σ) :
    (d.bind f).runAmid answer others s =
      let first := d.runAmid answer others s
      let rest := (f first.value).runAmid answer (fun i => others (i + first.trace.length)) first.state
      ⟨first.trace ++ rest.trace, rest.value, rest.state⟩ := by
  induction d generalizing others s with
  | done a => rfl
  | ask q k ih =>
    have hi := ih (answer q (others 0 s)).1 (fun i => others (i + 1)) (answer q (others 0 s)).2
    simp only [bind, runAmid, List.length_cons, List.cons_append, hi, Nat.add_assoc]

/-- Left alone, a dialogue ends as it does by itself. -/
theorem runAmid_alone (d : Dialogue Q A α) {others : Nat → σ → σ} (halone : ∀ i s, others i s = s)
    (s : σ) :
    ((d.runAmid answer others s).value, (d.runAmid answer others s).state) = d.run answer s := by
  induction d generalizing others s with
  | done a => rfl
  | ask q k ih =>
    have hi := ih (answer q s).1 (fun i => halone (i + 1)) (answer q s).2
    simpa only [runAmid, run, halone] using hi

/-- Two ways to answer agree on every dialogue when related states are answered alike. -/
theorem run_related {answer' : (q : Q) → τ → A q × τ} {R : σ → τ → Prop}
    (hanswer : ∀ q s t, R s t → (answer q s).1 = (answer' q t).1 ∧ R (answer q s).2 (answer' q t).2)
    (d : Dialogue Q A α) {s : σ} {t : τ} (hR : R s t) :
    (d.run answer s).1 = (d.run answer' t).1 ∧ R (d.run answer s).2 (d.run answer' t).2 := by
  induction d generalizing s t with
  | done a => exact ⟨rfl, hR⟩
  | ask q k ih =>
    obtain ⟨hvalue, hstate⟩ := hanswer q s t hR
    have hi := ih (answer q s).1 hstate
    simpa only [run, hvalue] using hi

end Dialogue
