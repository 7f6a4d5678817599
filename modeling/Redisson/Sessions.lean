import Mathlib.Data.Nat.Find

/-! Sessions that are opened and closed under keys, in moments numbered from 0. At one
moment a key may be opened first and closed afterwards. -/

namespace Sessions

variable {κ : Type*} (opens closes asks : ℕ → κ → Prop)

def IsOpen : ℕ → κ → Prop
  | 0, _ => False
  | n + 1, k => (IsOpen n k ∨ opens n k) ∧ ¬ closes n k

/-- No key is asked for, to be opened, while it is open. -/
def Unnested (len : ℕ) : Prop := ∀ n < len, ∀ k, asks n k → ¬ IsOpen opens closes n k

variable {opens closes asks}

theorem isOpen_iff {n : ℕ} {k : κ} :
    IsOpen opens closes n k ↔ ∃ i < n, opens i k ∧ ∀ j, i ≤ j → j < n → ¬ closes j k := by
  induction n with
  | zero => simp [IsOpen]
  | succ n ih =>
    constructor
    · rintro ⟨ho | ho, hc⟩
      · obtain ⟨i, hi, hoi, hn⟩ := ih.mp ho
        refine ⟨i, by omega, hoi, fun j hij hj => ?_⟩
        rcases Nat.lt_succ_iff_lt_or_eq.mp hj with hj | rfl
        · exact hn j hij hj
        · exact hc
      · refine ⟨n, by omega, ho, fun j hij hj => ?_⟩
        obtain rfl : j = n := by omega
        exact hc
    · rintro ⟨i, hi, hoi, hn⟩
      refine ⟨?_, hn n (by omega) (by omega)⟩
      rcases Nat.lt_succ_iff_lt_or_eq.mp hi with hi | rfl
      · exact .inl (ih.mpr ⟨i, hi, hoi, fun j hij hj => hn j hij (by omega)⟩)
      · exact .inr hoi

/-- Nothing is left open and nothing is opened twice exactly when every opening is followed
by a closing before its key is asked for again. -/
theorem closed_unnested_iff {len : ℕ} :
    ((∀ k, ¬ IsOpen opens closes len k) ∧ Unnested opens closes asks len) ↔
      ∀ i < len, ∀ k, opens i k →
        ∃ j, i ≤ j ∧ j < len ∧ closes j k ∧ ∀ l, i < l → l ≤ j → ¬ asks l k := by
  classical
  constructor
  · rintro ⟨hclosed, hunnested⟩ i hi k hoi
    have hex : ∃ j, i ≤ j ∧ j < len ∧ closes j k := by
      by_contra hno
      refine hclosed k (isOpen_iff.mpr ⟨i, hi, hoi, fun j hij hj hc => hno ⟨j, hij, hj, hc⟩⟩)
    obtain ⟨hle, hlt, hc⟩ := Nat.find_spec hex
    refine ⟨Nat.find hex, hle, hlt, hc, fun l hil hl hask => ?_⟩
    -- up to the first closing the key is open, so that it cannot be asked for
    refine hunnested l (by omega) k hask (isOpen_iff.mpr ⟨i, hil, hoi, fun j hij hj hcj => ?_⟩)
    exact Nat.find_min hex (by omega : j < Nat.find hex) ⟨hij, by omega, hcj⟩
  · intro h
    refine ⟨fun k hopen => ?_, fun n hn k hask hopen => ?_⟩
    · obtain ⟨i, hi, hoi, hno⟩ := isOpen_iff.mp hopen
      obtain ⟨j, hij, hj, hc, -⟩ := h i hi k hoi
      exact hno j hij hj hc
    · obtain ⟨i, hi, hoi, hno⟩ := isOpen_iff.mp hopen
      obtain ⟨j, hij, hj, hc, hfree⟩ := h i (by omega) k hoi
      by_cases hjn : j < n
      · exact hno j hij hjn hc
      · exact hfree n hi (by omega) hask

end Sessions
