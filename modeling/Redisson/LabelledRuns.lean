import Mathlib.Data.List.Forall2
import Mathlib.Logic.Function.Basic

/-! Runs of a partial step function whose steps carry labels, and the induction rules for
what such runs preserve. -/

namespace LabelledRuns

variable {σ ε : Type*} {step : σ → ε → Option σ}

def run (step : σ → ε → Option σ) : σ → List ε → Option σ
  | s, [] => some s
  | s, e :: es => (step s e).bind fun t => run step t es

/-- A run from `s` to `t` each of whose steps satisfies `ok` where it is taken. -/
def GuardedRun (step : σ → ε → Option σ) (ok : σ → ε → Prop) : σ → List ε → σ → Prop
  | s, [], t => s = t
  | s, e :: es, t => ok s e ∧ ∃ m, step s e = some m ∧ GuardedRun step ok m es t

theorem run_cons {s t : σ} {e : ε} {es : List ε} :
    run step s (e :: es) = some t ↔ ∃ m, step s e = some m ∧ run step m es = some t := by
  simp [run, Option.bind_eq_some_iff]

theorem run_append {s : σ} {es es' : List ε} :
    run step s (es ++ es') = (run step s es).bind fun t => run step t es' := by
  induction es generalizing s with
  | nil => rfl
  | cons e es ih => cases hs : step s e <;> simp [run, hs, ih]

theorem GuardedRun.run_eq {ok : σ → ε → Prop} {s t : σ} {es : List ε}
    (h : GuardedRun step ok s es t) : run step s es = some t := by
  induction es generalizing s with
  | nil => exact congrArg some h
  | cons e es ih =>
    obtain ⟨-, m, hm, hr⟩ := h
    exact run_cons.mpr ⟨m, hm, ih hr⟩

/-- What each admitted step satisfies where an invariant of the admitted steps holds. -/
theorem GuardedRun.of_invariant {ok ok' : σ → ε → Prop} {Inv : σ → Prop} {s t : σ} {es : List ε}
    (hstep : ∀ s e m, Inv s → ok s e → step s e = some m → Inv m)
    (hok : ∀ s e, Inv s → ok s e → ok' s e) (hs : Inv s) (h : GuardedRun step ok s es t) :
    GuardedRun step ok' s es t := by
  induction es generalizing s with
  | nil => exact h
  | cons e es ih =>
    obtain ⟨he, m, hm, hr⟩ := h
    exact ⟨hok s e hs he, m, hm, ih (hstep s e m hs he hm) hr⟩

theorem GuardedRun.mono {ok ok' : σ → ε → Prop} {s t : σ} {es : List ε}
    (hok : ∀ s e, ok s e → ok' s e) (h : GuardedRun step ok s es t) : GuardedRun step ok' s es t :=
  h.of_invariant (fun _ _ _ _ _ _ => trivial) (fun s e _ => hok s e) trivial

theorem guardedRun_append {ok : σ → ε → Prop} {s t : σ} {es es' : List ε} :
    GuardedRun step ok s (es ++ es') t ↔
      ∃ m, GuardedRun step ok s es m ∧ GuardedRun step ok m es' t := by
  induction es generalizing s with
  | nil => exact ⟨fun h => ⟨s, rfl, h⟩, fun ⟨_, hm, h⟩ => hm ▸ h⟩
  | cons e es ih =>
    constructor
    · rintro ⟨hok, n, hn, hr⟩
      obtain ⟨m, hm, h'⟩ := ih.mp hr
      exact ⟨m, ⟨hok, n, hn, hm⟩, h'⟩
    · rintro ⟨m, ⟨hok, n, hn, hr⟩, h'⟩
      exact ⟨hok, n, hn, ih.mpr ⟨m, hr, h'⟩⟩

theorem GuardedRun.last {ok : σ → ε → Prop} {s t : σ} {es : List ε} {e : ε}
    (h : GuardedRun step ok s (es ++ [e]) t) : ∃ m, run step s es = some m ∧ ok m e := by
  obtain ⟨m, hm, hok, -⟩ := guardedRun_append.mp h
  exact ⟨m, hm.run_eq, hok⟩

theorem guardedRun_of_forall {P : ε → Prop} {s t : σ} {es : List ε} (hP : ∀ e ∈ es, P e)
    (h : run step s es = some t) : GuardedRun step (fun _ e => P e) s es t := by
  induction es generalizing s with
  | nil => exact Option.some.inj h
  | cons e es ih =>
    obtain ⟨m, hm, hr⟩ := run_cons.mp h
    exact ⟨hP e List.mem_cons_self, m, hm, ih (fun e he => hP e (List.mem_cons_of_mem _ he)) hr⟩

/-- An invariant that each admitted step keeps holds at the end of every admitted run. -/
theorem GuardedRun.invariant {ok : σ → ε → Prop} {Inv : σ → Prop} {s t : σ} {es : List ε}
    (hstep : ∀ s e m, Inv s → ok s e → step s e = some m → Inv m) (hs : Inv s)
    (h : GuardedRun step ok s es t) : Inv t := by
  induction es generalizing s with
  | nil => exact h ▸ hs
  | cons e es ih =>
    obtain ⟨hok, m, hm, hr⟩ := h
    exact ih (hstep s e m hs hok hm) hr

theorem run_invariant {Inv : σ → Prop} {s t : σ} {es : List ε}
    (hstep : ∀ s e m, Inv s → step s e = some m → Inv m) (hs : Inv s)
    (h : run step s es = some t) : Inv t :=
  (guardedRun_of_forall (P := fun _ => True) (fun _ _ => trivial) h).invariant
    (fun s e m hs _ hm => hstep s e m hs hm) hs

/-- A relation whose pairs are kept by matching each step with a run is kept by runs. -/
theorem run_simulates {τ ε' : Type*} {step' : τ → ε' → Option τ} {R : σ → τ → Prop} {s m : σ} {t : τ}
    {es : List ε}
    (hstep : ∀ s e m t, R s t → step s e = some m → ∃ es' t', run step' t es' = some t' ∧ R m t')
    (hR : R s t) (h : run step s es = some m) : ∃ es' t', run step' t es' = some t' ∧ R m t' := by
  induction es generalizing s t with
  | nil => exact ⟨[], t, rfl, Option.some.inj h ▸ hR⟩
  | cons e es ih =>
    obtain ⟨n, hn, hr⟩ := run_cons.mp h
    obtain ⟨es₁, t₁, h₁, hR₁⟩ := hstep s e n t hR hn
    obtain ⟨es₂, t₂, h₂, hR₂⟩ := ih hR₁ hr
    exact ⟨es₁ ++ es₂, t₂, by rw [run_append, h₁]; exact h₂, hR₂⟩

/-- The same for admitted steps, with the labels that match each step. -/
theorem GuardedRun.simulates {τ ε' : Type*} {step' : τ → ε' → Option τ} {ok : σ → ε → Prop}
    {ok' : τ → ε' → Prop} {R : σ → τ → Prop} {L : ε → List ε' → Prop} {s m : σ} {t : τ} {es : List ε}
    (hstep : ∀ s e m t, R s t → ok s e → step s e = some m →
      ∃ es' t', L e es' ∧ GuardedRun step' ok' t es' t' ∧ R m t')
    (hR : R s t) (h : GuardedRun step ok s es m) :
    ∃ ess t', List.Forall₂ L es ess ∧ GuardedRun step' ok' t ess.flatten t' ∧ R m t' := by
  induction es generalizing s t with
  | nil => exact ⟨[], t, .nil, rfl, (h : s = m) ▸ hR⟩
  | cons e es ih =>
    obtain ⟨he, n, hn, hr⟩ := h
    obtain ⟨es₁, t₁, hl, h₁, hR₁⟩ := hstep s e n t hR he hn
    obtain ⟨ess, t₂, hls, h₂, hR₂⟩ := ih hR₁ hr
    exact ⟨es₁ :: ess, t₂, .cons hl hls, guardedRun_append.mpr ⟨t₁, h₁, h₂⟩, hR₂⟩

/-! A family of threads of which one moves on. -/

variable {α : Type*} {P : α → Prop} {f : Nat → α} {t : Nat} {x : α}

theorem exists_update (h : ∃ i, P (f i)) (hx : P (f t) → P x) : ∃ i, P (Function.update f t x i) := by
  apply (Function.exists_update_iff f fun _ a => P a).mpr
  obtain ⟨i, hi⟩ := h
  by_cases hit : i = t
  · exact .inl (hx (hit ▸ hi))
  · exact .inr ⟨i, hit, hi⟩

theorem exists_update_of_not (h : ∃ i, P (f i)) (ht : ¬ P (f t)) : ∃ i, P (Function.update f t x i) :=
  exists_update h fun hh => absurd hh ht

theorem of_exists_update (h : ∃ i, P (Function.update f t x i)) : P x ∨ ∃ i, P (f i) := by
  rcases (Function.exists_update_iff f fun _ a => P a).mp h with hx | ⟨i, -, hi⟩
  · exact .inl hx
  · exact .inr ⟨i, hi⟩

end LabelledRuns
