import Mathlib.Data.List.Pairwise

/-! Who holds a resource that a thread may take more than once, told from the acquisitions and
releases so far, and the list of its holders in the order in which they came. -/

namespace ReentrantHolds

variable {α β : Type*} [DecidableEq α]

/-- `add` takes the resource under a name, `remove` gives up one hold. -/
inductive Op (α β : Type*)
  | add (t : α) (name : β)
  | remove (t : α)

/-- What becomes of the holds of a thread; one that has none can give none up. -/
def Op.count (n : Nat) (t : α) : Op α β → Nat
  | add t' _ => if t' = t then n + 1 else n
  | remove t' => if t' = t then n - 1 else n

def holds (ops : List (Op α β)) (t : α) : Nat := ops.foldl (fun n op => op.count n t) 0

@[simp] theorem holds_nil (t : α) : holds ([] : List (Op α β)) t = 0 := rfl

@[simp] theorem holds_append_singleton (ops : List (Op α β)) (op : Op α β) (t : α) :
    holds (ops ++ [op]) t = op.count (holds ops t) t := by
  simp [holds]

/-- The thread holds the resource, has done so since step `i`, and took it under `name` then. -/
structure HeldSince (ops : List (Op α β)) (t : α) (i : Nat) (name : β) : Prop where
  added : ops[i]? = some (.add t name)
  free : holds (ops.take i) t = 0
  held : ∀ j, i < j → j ≤ ops.length → 0 < holds (ops.take j) t

/-- The name under which it was taken by the thread that has held it for longest. -/
def LongestHeld (ops : List (Op α β)) (name : β) : Prop :=
  ∃ t i, HeldSince ops t i name ∧
    ∀ t', 0 < holds ops t' → ∃ i' name', HeldSince ops t' i' name' ∧ i ≤ i'

namespace HeldSince

variable {ops : List (Op α β)} {op : Op α β} {t : α} {i i' : Nat} {name name' : β}

theorem lt_length (h : HeldSince ops t i name) : i < ops.length :=
  (List.getElem?_eq_some_iff.mp h.added).1

theorem pos (h : HeldSince ops t i name) : 0 < holds ops t := by
  simpa using h.held ops.length h.lt_length (Nat.le_refl _)

theorem le (h : HeldSince ops t i name) (h' : HeldSince ops t i' name') : i' ≤ i := by
  by_contra hlt
  have hpos := h.held i' (by omega) (Nat.le_of_lt h'.lt_length)
  have hfree := h'.free
  omega

theorem unique (h : HeldSince ops t i name) (h' : HeldSince ops t i' name') :
    i = i' ∧ name = name' := by
  obtain rfl : i = i' := Nat.le_antisymm (h'.le h) (h.le h')
  have hop := h.added.symm.trans h'.added
  simp only [Option.some.injEq, Op.add.injEq] at hop
  exact ⟨rfl, hop.2⟩

theorem append (h : HeldSince ops t i name) (hpos : 0 < holds (ops ++ [op]) t) :
    HeldSince (ops ++ [op]) t i name := by
  have hi := h.lt_length
  constructor
  · rw [List.getElem?_append_left hi]
    exact h.added
  · rw [List.take_append_of_le_length (Nat.le_of_lt hi)]
    exact h.free
  · intro j hij hj
    by_cases hle : j ≤ ops.length
    · rw [List.take_append_of_le_length hle]
      exact h.held j hij hle
    · have hall : (ops ++ [op]).length ≤ j := by
        simp only [List.length_append, List.length_singleton] at hj ⊢
        omega
      rwa [List.take_of_length_le hall]

theorem new (h : holds ops t = 0) : HeldSince (ops ++ [.add t name]) t ops.length name := by
  constructor
  · simp
  · simpa using h
  · intro j hij hj
    have hall : (ops ++ [Op.add t name]).length ≤ j := by
      simp only [List.length_append, List.length_singleton] at hj ⊢
      omega
    rw [List.take_of_length_le hall]
    simp [Op.count]

end HeldSince

structure Holder (α β : Type*) where
  thread : α
  name : β
  since : Nat

/-- The holders after one more operation: a thread that had no hold joins at the end, and one that
gives up its last hold leaves. -/
def advance (past : List (Op α β)) (hs : List (Holder α β)) : Op α β → List (Holder α β)
  | .add t name => if holds past t = 0 then hs ++ [⟨t, name, past.length⟩] else hs
  | .remove t => if holds past t = 1 then hs.filter (fun h => h.thread ≠ t) else hs

def holdersFrom (past : List (Op α β)) (hs : List (Holder α β)) : List (Op α β) → List (Holder α β)
  | [] => hs
  | op :: ops => holdersFrom (past ++ [op]) (advance past hs op) ops

def holders (ops : List (Op α β)) : List (Holder α β) := holdersFrom [] [] ops

/-- The list is that of the holders, longest holder first. -/
structure InOrder (ops : List (Op α β)) (hs : List (Holder α β)) : Prop where
  held : ∀ h ∈ hs, HeldSince ops h.thread h.since h.name
  complete : ∀ t, 0 < holds ops t → t ∈ hs.map Holder.thread
  sorted : hs.Pairwise fun h h' => h.since < h'.since

namespace InOrder

variable {ops : List (Op α β)} {hs : List (Holder α β)} {t : α} {name : β}

theorem mem_iff (h : InOrder ops hs) : t ∈ hs.map Holder.thread ↔ 0 < holds ops t := by
  refine ⟨fun ht => ?_, h.complete t⟩
  obtain ⟨x, hx, rfl⟩ := List.mem_map.mp ht
  exact (h.held x hx).pos

theorem add_held (h : InOrder ops hs) (ht : holds ops t ≠ 0) : InOrder (ops ++ [.add t name]) hs := by
  have hle : ∀ t', holds ops t' ≤ holds (ops ++ [.add t name]) t' := by
    intro t'
    simp only [holds_append_singleton, Op.count]
    split <;> omega
  refine ⟨fun x hx => ?_, fun t' ht' => ?_, h.sorted⟩
  · exact (h.held x hx).append (Nat.lt_of_lt_of_le (h.held x hx).pos (hle _))
  · refine h.complete t' ?_
    simp only [holds_append_singleton, Op.count] at ht'
    split at ht'
    · next htt => subst htt; omega
    · exact ht'

theorem add_new (h : InOrder ops hs) (ht : holds ops t = 0) :
    InOrder (ops ++ [.add t name]) (hs ++ [⟨t, name, ops.length⟩]) := by
  refine ⟨fun x hx => ?_, fun t' ht' => ?_, ?_⟩
  · rcases List.mem_append.mp hx with hx | hx
    · have hpos := (h.held x hx).pos
      refine (h.held x hx).append ?_
      simp only [holds_append_singleton, Op.count]
      split <;> omega
    · obtain rfl : x = ⟨t, name, ops.length⟩ := by simpa using hx
      exact .new ht
  · simp only [holds_append_singleton, Op.count] at ht'
    by_cases htt : t = t'
    · subst htt
      simp
    · rw [if_neg htt] at ht'
      simpa using .inl (List.mem_map.mp (h.complete t' ht'))
  · refine List.pairwise_append.mpr ⟨h.sorted, List.pairwise_singleton _ _, fun x hx y hy => ?_⟩
    obtain rfl : y = ⟨t, name, ops.length⟩ := by simpa using hy
    exact (h.held x hx).lt_length

theorem remove_held (h : InOrder ops hs) (ht : holds ops t ≠ 1) : InOrder (ops ++ [.remove t]) hs := by
  have hpos : ∀ t', 0 < holds (ops ++ [.remove t]) t' ↔ 0 < holds ops t' := by
    intro t'
    simp only [holds_append_singleton, Op.count]
    split
    · next htt => subst htt; omega
    · rfl
  refine ⟨fun x hx => ?_, fun t' ht' => h.complete t' ((hpos t').mp ht'), h.sorted⟩
  exact (h.held x hx).append ((hpos _).mpr (h.held x hx).pos)

theorem remove_last (h : InOrder ops hs) (ht : holds ops t = 1) :
    InOrder (ops ++ [.remove t]) (hs.filter fun x => x.thread ≠ t) := by
  refine ⟨fun x hx => ?_, fun t' ht' => ?_, h.sorted.filter _⟩
  · obtain ⟨hx, hne⟩ := List.mem_filter.mp hx
    refine (h.held x hx).append ?_
    have hxt : t ≠ x.thread := fun he => by simp [he] at hne
    simpa [Op.count, hxt] using (h.held x hx).pos
  · simp only [holds_append_singleton, Op.count] at ht'
    by_cases htt : t = t'
    · subst htt
      simp [ht] at ht'
    · rw [if_neg htt] at ht'
      obtain ⟨x, hx, rfl⟩ := List.mem_map.mp (h.complete t' ht')
      exact List.mem_map_of_mem (List.mem_filter.mpr ⟨hx, by simpa using Ne.symm htt⟩)

theorem advance (h : InOrder ops hs) (op : Op α β) :
    InOrder (ops ++ [op]) (advance ops hs op) := by
  cases op with
  | add t name =>
    by_cases ht : holds ops t = 0
    · simpa [ReentrantHolds.advance, ht] using h.add_new ht
    · simpa [ReentrantHolds.advance, ht] using h.add_held ht
  | remove t =>
    by_cases ht : holds ops t = 1
    · simpa [ReentrantHolds.advance, ht] using h.remove_last ht
    · simpa [ReentrantHolds.advance, ht] using h.remove_held ht

theorem holdersFrom (h : InOrder ops hs) (later : List (Op α β)) :
    InOrder (ops ++ later) (holdersFrom ops hs later) := by
  induction later generalizing ops hs with
  | nil => simpa [ReentrantHolds.holdersFrom] using h
  | cons op later ih => simpa [ReentrantHolds.holdersFrom] using ih (h.advance op)

theorem head_eq_none_iff (h : InOrder ops hs) : hs.head? = none ↔ ∀ t, holds ops t = 0 := by
  constructor
  · intro hn t
    obtain rfl : hs = [] := List.head?_eq_none_iff.mp hn
    by_contra ht
    have hmem := h.complete t (Nat.pos_of_ne_zero ht)
    simp at hmem
  · intro hz
    refine List.head?_eq_none_iff.mpr (List.eq_nil_iff_forall_not_mem.mpr fun x hx => ?_)
    have hpos := (h.held x hx).pos
    have hzero := hz x.thread
    omega

/-- The first of the list is the longest holder. -/
theorem head_name_iff (h : InOrder ops hs) :
    hs.head?.map Holder.name = some name ↔ LongestHeld ops name := by
  constructor
  · intro hn
    obtain ⟨x, hx, rfl⟩ := Option.map_eq_some_iff.mp hn
    obtain ⟨rest, rfl⟩ := List.head?_eq_some_iff.mp hx
    refine ⟨x.thread, x.since, h.held x (by simp), fun t' ht' => ?_⟩
    obtain ⟨y, hy, rfl⟩ := List.mem_map.mp (h.complete t' ht')
    refine ⟨y.since, y.name, h.held y hy, ?_⟩
    rcases List.mem_cons.mp hy with rfl | hy
    · exact Nat.le_refl _
    · exact Nat.le_of_lt ((List.pairwise_cons.mp h.sorted).1 y hy)
  · rintro ⟨t, i, ht, hfirst⟩
    obtain ⟨y, hy, rfl⟩ := List.mem_map.mp (h.complete t ht.pos)
    obtain ⟨rfl, rfl⟩ := (h.held y hy).unique ht
    cases hs with
    | nil => cases hy
    | cons x rest =>
      rcases List.mem_cons.mp hy with rfl | hy
      · rfl
      · have hx := h.held x (by simp)
        obtain ⟨i', name', hi', hle⟩ := hfirst x.thread hx.pos
        obtain ⟨rfl, -⟩ := hx.unique hi'
        have hlt := (List.pairwise_cons.mp h.sorted).1 y hy
        omega

end InOrder

theorem inOrder_holders (ops : List (Op α β)) : InOrder ops (holders ops) := by
  have hnil : InOrder ([] : List (Op α β)) [] := ⟨by simp, by simp, .nil⟩
  simpa [holders] using hnil.holdersFrom ops

end ReentrantHolds
