import Mathlib.Data.List.Basic
import Mathlib.Data.List.Nodup
import Mathlib.Data.List.Perm.Basic
import Mathlib.Logic.Function.Basic

/-! Machines that answer requests, and a family of them at distinct addresses. What happens
at one address depends only on the requests sent there, in their order. -/

namespace AddressedMachines

variable {κ σ ρ α : Type*}

section Machine

variable (step : σ → ρ → σ × α)

def answers : σ → List ρ → List α
  | _, [] => []
  | s, r :: rs => (step s r).2 :: answers (step s r).1 rs

def after : σ → List ρ → σ
  | s, [] => s
  | s, r :: rs => after (step s r).1 rs

variable {step}

@[simp] theorem answers_length (s : σ) (rs : List ρ) : (answers step s rs).length = rs.length := by
  induction rs generalizing s with
  | nil => rfl
  | cons r rs ih => simp [answers, ih]

theorem after_append (s : σ) (rs rs' : List ρ) :
    after step s (rs ++ rs') = after step (after step s rs) rs' := by
  induction rs generalizing s with
  | nil => rfl
  | cons r rs ih => exact ih _

theorem answers_append (s : σ) (rs rs' : List ρ) :
    answers step s (rs ++ rs') = answers step s rs ++ answers step (after step s rs) rs' := by
  induction rs generalizing s with
  | nil => rfl
  | cons r rs ih => simp [answers, after, ih]

end Machine

section Addresses

variable [DecidableEq κ] {w w' : List (κ × ρ)} {k : κ}

def requestsAt (k : κ) (w : List (κ × ρ)) : List ρ := (w.filter (·.1 = k)).map Prod.snd

theorem requestsAt_cons_self {r : ρ} : requestsAt k ((k, r) :: w) = r :: requestsAt k w := by
  simp [requestsAt]

theorem requestsAt_cons_of_ne {k' : κ} {r : ρ} (h : k' ≠ k) :
    requestsAt k ((k', r) :: w) = requestsAt k w := by simp [requestsAt, h]

theorem exists_split {r : ρ} {rs rs' : List ρ} (h : requestsAt k w = rs ++ r :: rs') :
    ∃ u v, w = u ++ (k, r) :: v ∧ requestsAt k u = rs ∧ requestsAt k v = rs' := by
  induction w generalizing rs with
  | nil => simp [requestsAt] at h
  | cons q w ih =>
    obtain ⟨k', r'⟩ := q
    by_cases hk : k' = k
    · subst hk
      rw [requestsAt_cons_self] at h
      cases rs with
      | nil =>
        obtain ⟨rfl, htail⟩ := List.cons.inj h
        exact ⟨[], w, rfl, rfl, htail⟩
      | cons x rs =>
        obtain ⟨rfl, htail⟩ := List.cons.inj h
        obtain ⟨u, v, rfl, hu, hv⟩ := ih htail
        exact ⟨(k', r') :: u, v, rfl, by rw [requestsAt_cons_self, hu], hv⟩
    · rw [requestsAt_cons_of_ne hk] at h
      obtain ⟨u, v, rfl, hu, hv⟩ := ih h
      exact ⟨(k', r') :: u, v, rfl, by rw [requestsAt_cons_of_ne hk, hu], hv⟩

/-- The answers to the requests that carry the address `k`. -/
def answersAt (step : σ → κ × ρ → σ × α) (s : σ) (w : List (κ × ρ)) (k : κ) : List α :=
  ((w.zip (answers step s w)).filter (·.1.1 = k)).map Prod.snd

variable {step : σ → κ × ρ → σ × α} {s : σ}

theorem answersAt_cons_self {r : ρ} : answersAt step s ((k, r) :: w) k =
    (step s (k, r)).2 :: answersAt step (step s (k, r)).1 w k := by
  simp [answersAt, answers]

theorem answersAt_cons_of_ne {k' : κ} {r : ρ} (h : k' ≠ k) :
    answersAt step s ((k', r) :: w) k = answersAt step (step s (k', r)).1 w k := by
  simp [answersAt, answers, h]

theorem answersAt_append : answersAt step s (w ++ w') k =
    answersAt step s w k ++ answersAt step (after step s w) w' k := by
  induction w generalizing s with
  | nil => rfl
  | cons q w ih =>
    obtain ⟨k', r⟩ := q
    by_cases h : k' = k
    · subst h
      simp [answersAt_cons_self, ih, after]
    · simp [answersAt_cons_of_ne h, ih, after]

@[simp] theorem answersAt_length : (answersAt step s w k).length = (requestsAt k w).length := by
  induction w generalizing s with
  | nil => rfl
  | cons q w ih =>
    obtain ⟨k', r⟩ := q
    by_cases h : k' = k
    · subst h
      simp [answersAt_cons_self, requestsAt_cons_self, ih]
    · simp [answersAt_cons_of_ne h, requestsAt_cons_of_ne h, ih]

theorem answersAt_eq_nil (h : requestsAt k w = []) : answersAt step s w k = [] :=
  List.eq_nil_of_length_eq_zero (by simp [h])

end Addresses

section Family

variable [DecidableEq κ] (step : κ → σ → ρ → σ × α)

/-- The machines as one, for requests that carry their address. -/
def family (s : κ → σ) (q : κ × ρ) : (κ → σ) × α :=
  (Function.update s q.1 (step q.1 (s q.1) q.2).1, (step q.1 (s q.1) q.2).2)

variable {step} {s : κ → σ} {w w' : List (κ × ρ)} {k : κ}

theorem after_family (s : κ → σ) (w : List (κ × ρ)) (k : κ) :
    after (family step) s w k = after (step k) (s k) (requestsAt k w) := by
  induction w generalizing s with
  | nil => rfl
  | cons q w ih =>
    obtain ⟨k', r⟩ := q
    by_cases h : k' = k
    · subst h
      simp [after, ih, family, requestsAt_cons_self]
    · simp [after, ih, family, requestsAt_cons_of_ne h, Function.update_of_ne (Ne.symm h)]

theorem answersAt_family (s : κ → σ) (w : List (κ × ρ)) (k : κ) :
    answersAt (family step) s w k = answers (step k) (s k) (requestsAt k w) := by
  induction w generalizing s with
  | nil => rfl
  | cons q w ih =>
    obtain ⟨k', r⟩ := q
    by_cases h : k' = k
    · subst h
      simp [answers, ih, family, answersAt_cons_self, requestsAt_cons_self]
    · simp [ih, family, answersAt_cons_of_ne h,
        requestsAt_cons_of_ne h, Function.update_of_ne (Ne.symm h)]

/-- Two orders of the same requests at each address lead to the same states. -/
theorem after_family_congr (h : ∀ k, requestsAt k w = requestsAt k w') :
    after (family step) s w = after (family step) s w' := by
  funext k
  rw [after_family, after_family, h]

end Family

/-! Items with an address, split by address. -/

section Split

variable {β γ : Type*} [DecidableEq κ] {f : β → κ}

theorem perm_flatMap_filter {ks : List κ} {l : List β} (hk : ks.Nodup) (hl : ∀ b ∈ l, f b ∈ ks) :
    (ks.flatMap fun k => l.filter (f · = k)).Perm l := by
  induction ks generalizing l with
  | nil =>
    obtain rfl : l = [] := List.eq_nil_iff_forall_not_mem.mpr fun b hb => by simpa using hl b hb
    simp
  | cons k ks ih =>
    obtain ⟨hnew, hks⟩ := List.nodup_cons.mp hk
    have hrest : (ks.flatMap fun k' => l.filter (f · = k')) =
        ks.flatMap fun k' => (l.filter (f · ≠ k)).filter (f · = k') := by
      refine List.flatMap_congr fun k' hk' => ?_
      rw [List.filter_filter]
      refine List.filter_congr fun b _ => ?_
      by_cases hb : f b = k'
      · have hne : f b ≠ k := fun h => hnew (h ▸ hb ▸ hk')
        simp [hb, hb ▸ hne]
      · simp [hb]
    have hperm := ih (l := l.filter (f · ≠ k)) hks fun b hb => by
      obtain ⟨hb, hne⟩ := List.mem_filter.mp hb
      exact (List.mem_cons.mp (hl b hb)).resolve_left (by simpa using hne)
    rw [List.flatMap_cons, hrest]
    refine (hperm.append_left _).trans ?_
    simpa using List.filter_append_perm (f · = k) l

theorem filter_eq_singleton {l : List β} {b : β} (hn : (l.map f).Nodup) (hb : b ∈ l) :
    l.filter (f · = f b) = [b] := by
  induction l with
  | nil => simp at hb
  | cons a l ih =>
    obtain ⟨ha, hl⟩ := List.nodup_cons.mp hn
    rcases List.mem_cons.mp hb with rfl | hb
    · have hnone : l.filter (f · = f b) = [] :=
        List.filter_eq_nil_iff.mpr fun c hc hcb =>
          ha (List.mem_map.mpr ⟨c, hc, of_decide_eq_true hcb⟩)
      simp [hnone]
    · have hne : f a ≠ f b := fun h => ha (List.mem_map.mpr ⟨b, hb, h.symm⟩)
      simp [hne, ih hl hb]

theorem zip_filter {l : List β} {rs : List γ} (h : l.length ≤ rs.length) (p : β → Bool) :
    (l.filter p).zip (((l.zip rs).filter (p ·.1)).map Prod.snd) = (l.zip rs).filter (p ·.1) := by
  induction l generalizing rs with
  | nil => simp
  | cons b l ih =>
    cases rs with
    | nil => simp at h
    | cons r rs =>
      have ht := ih (by simpa using h : l.length ≤ rs.length)
      cases hb : p b <;> simp [hb, ht]

end Split

end AddressedMachines
