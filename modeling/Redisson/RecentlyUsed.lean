import Mathlib.Data.List.Basic

/-! What a cache that evicts its least recently used key holds: of the keys ever used, most
recent first and each once, as many as there is room for. Histories are lists, latest use first. -/

namespace RecentlyUsed

variable {α : Type*} [DecidableEq α]

def touch (x : α) (l : List α) : List α := x :: l.filter (· ≠ x)

def recency : List α → List α
  | [] => []
  | x :: past => touch x (recency past)

/-- The keys of a cache with room for `n`, after a history of uses. -/
def cached (n : Nat) : List α → List α
  | [] => []
  | x :: past => (touch x (cached n past)).take n

theorem mem_touch {x y : α} {l : List α} : y ∈ touch x l ↔ y = x ∨ y ∈ l := by
  by_cases h : y = x
  · simp [touch, h]
  · simp [touch, h]

theorem nodup_touch {x : α} {l : List α} (h : l.Nodup) : (touch x l).Nodup :=
  List.nodup_cons.mpr ⟨by simp, h.filter _⟩

theorem mem_recency {x : α} {past : List α} : x ∈ recency past ↔ x ∈ past := by
  induction past with
  | nil => simp [recency]
  | cons y past ih => rw [recency, mem_touch, ih, List.mem_cons]

theorem nodup_recency (past : List α) : (recency past).Nodup := by
  induction past with
  | nil => exact List.nodup_nil
  | cons x past ih => exact nodup_touch ih

/-- Of a list without repetition, the filter drops one element at most: what is beyond the first
`n + 1` cannot come among the first `n` that stay. -/
theorem take_filter_take {x : α} {l : List α} (h : l.Nodup) (n : Nat) :
    ((l.take (n + 1)).filter (· ≠ x)).take n = (l.filter (· ≠ x)).take n := by
  induction l generalizing n with
  | nil => rfl
  | cons y l ih =>
    obtain ⟨hy, hl⟩ := List.nodup_cons.mp h
    rw [List.take_succ_cons]
    by_cases hyx : y = x
    · subst hyx
      have hsame : ∀ m : List α, y ∉ m → m.filter (· ≠ y) = m := fun m hm =>
        List.filter_eq_self.mpr fun z hz => by simpa using fun hzy : z = y => hm (hzy ▸ hz)
      have htake : y ∉ l.take n := fun hm => hy (List.mem_of_mem_take hm)
      rw [List.filter_cons_of_neg (by simp), List.filter_cons_of_neg (by simp), hsame l hy,
        hsame _ htake, List.take_take, Nat.min_self]
    · cases n with
      | zero => simp
      | succ n =>
        have hi := ih hl n
        simp only [List.filter_cons, ne_eq, hyx, not_false_eq_true, decide_true, if_true,
          List.take_succ_cons] at hi ⊢
        rw [hi]

theorem take_touch {x : α} {l : List α} (h : l.Nodup) (n : Nat) :
    (touch x (l.take n)).take n = (touch x l).take n := by
  cases n with
  | zero => rfl
  | succ n =>
    unfold touch
    rw [List.take_succ_cons, List.take_succ_cons, take_filter_take h]

theorem cached_eq_take (n : Nat) (past : List α) : cached n past = (recency past).take n := by
  induction past with
  | nil => simp [cached, recency]
  | cons x past ih => rw [cached, ih, recency, take_touch (nodup_recency past)]

/-- The keys used since the last use of `x` come before it. -/
theorem recency_append {x : α} {later : List α} (h : x ∉ later) (before : List α) :
    ∃ rest, recency (later ++ x :: before) = recency later ++ x :: rest := by
  induction later with
  | nil => exact ⟨_, rfl⟩
  | cons y later ih =>
    obtain ⟨hy, hlater⟩ : x ≠ y ∧ x ∉ later := by simpa [not_or] using h
    obtain ⟨rest, hrest⟩ := ih hlater
    refine ⟨rest.filter (· ≠ y), ?_⟩
    rw [List.cons_append, recency, hrest, recency, touch, touch, List.filter_append,
      List.filter_cons, if_pos (by simpa using hy), List.cons_append]

/-- A key is cached if it was used, and fewer than `n` other keys have been used since. -/
theorem mem_cached_iff {n : Nat} {x : α} {past : List α} :
    x ∈ cached n past ↔ x ∈ past ∧ (recency (past.takeWhile (· ≠ x))).length < n := by
  rw [cached_eq_take]
  by_cases hx : x ∈ past
  · obtain ⟨later, before, rfl, hlater⟩ := List.eq_append_cons_of_mem hx
    have hwhile : (later ++ x :: before).takeWhile (· ≠ x) = later := by
      rw [List.takeWhile_append_of_pos, List.takeWhile_cons_of_neg (by simp), List.append_nil]
      intro y hy
      simpa using fun hyx : y = x => hlater (hyx ▸ hy)
    obtain ⟨rest, hrest⟩ := recency_append hlater before
    have hlater' : x ∉ recency later := fun hm => hlater (mem_recency.mp hm)
    rw [hwhile, hrest, List.take_append, List.mem_append]
    constructor
    · rintro (hm | hm)
      · exact absurd (List.mem_of_mem_take hm) hlater'
      · have hpos : n - (recency later).length ≠ 0 := fun hz => by simp [hz] at hm
        exact ⟨hx, by omega⟩
    · rintro ⟨-, hlt⟩
      obtain ⟨k, hk⟩ := Nat.exists_eq_add_of_lt hlt
      have hsucc : n - (recency later).length = k + 1 := by omega
      rw [hsucc]
      exact .inr List.mem_cons_self
  · have hnot : x ∉ (recency past).take n := fun hm =>
      hx (mem_recency.mp (List.mem_of_mem_take hm))
    simp [hx, hnot]

end RecentlyUsed
