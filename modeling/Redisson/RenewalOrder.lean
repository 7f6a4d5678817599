import Redisson.LockEntry

/-! Under which name a lock is renewed. The queue of a `LockEntry`, read without its repetitions,
is the list of the threads that hold the lock in the order in which they came. -/

namespace Redisson

open LabelledRuns ReentrantHolds

theorem eraseDups_filter {α : Type*} [BEq α] [LawfulBEq α] (p : α → Bool) (l : List α) :
    (l.filter p).eraseDups = l.eraseDups.filter p := by
  induction hn : l.length using Nat.strong_induction_on generalizing l with
  | _ n ih =>
    cases l with
    | nil => simp
    | cons a l =>
      have hlt : (l.filter fun b => !b == a).length < n :=
        hn ▸ Nat.lt_succ_of_le (List.length_filter_le _ _)
      have hrest := ih _ hlt _ rfl
      by_cases hp : p a = true
      · rw [List.filter_cons_of_pos hp, List.eraseDups_cons, List.eraseDups_cons,
          List.filter_cons_of_pos hp, ← hrest, List.filter_filter, List.filter_filter]
        simp only [Bool.and_comm]
      · -- what is filtered out does not contain `a` anyway
        have hdrop : l.filter p = (l.filter fun b => !b == a).filter p := by
          rw [List.filter_filter]
          refine List.filter_congr fun b _ => ?_
          by_cases hb : b = a
          · subst hb
            simp [hp]
          · simp [hb]
        rw [List.filter_cons_of_neg hp, List.eraseDups_cons, List.filter_cons_of_neg hp, ← hrest, hdrop]

theorem head_eraseDups {α : Type*} [BEq α] (l : List α) : l.eraseDups.head? = l.head? := by
  cases l with
  | nil => rfl
  | cons a l => simp [List.eraseDups_cons]

/-- The entry stores the holders that the operations so far have left. -/
structure Stores (e : LockEntry) (ops : List (Op String String)) (hs : List (Holder String String)) :
    Prop where
  counter : ∀ t, e.threadCounter.lookup t = if holds ops t = 0 then none else some (holds ops t)
  name : ∀ t n, e.thread2lockName.lookup t = some n ↔ ∃ x ∈ hs, x.thread = t ∧ x.name = n
  queue : e.threadsQueue.eraseDups = hs.map Holder.thread

namespace Stores

variable {e : LockEntry} {ops : List (Op String String)} {hs : List (Holder String String)}
  {t name : String}

theorem mem_queue (h : Stores e ops hs) : t ∈ e.threadsQueue ↔ t ∈ hs.map Holder.thread := by
  rw [← h.queue, List.mem_eraseDups]

theorem lookup_name_eq_none (h : Stores e ops hs) (ht : t ∉ hs.map Holder.thread) :
    e.thread2lockName.lookup t = none := by
  refine Option.eq_none_iff_forall_ne_some.mpr fun n hn => ht ?_
  obtain ⟨x, hx, rfl, -⟩ := (h.name t n).mp hn
  exact List.mem_map_of_mem hx

theorem counter_add (h : Stores e ops hs) (t' : String) :
    (e.addThreadId t name).threadCounter.lookup t' =
      if holds (ops ++ [.add t name]) t' = 0 then none else some (holds (ops ++ [.add t name]) t') := by
  rw [LockEntry.lookup_addThreadId, h.counter, h.counter]
  by_cases ht : t' = t
  · subst ht
    by_cases hz : holds ops t' = 0 <;> simp [Op.count, hz]
  · simp [Op.count, ht, Ne.symm ht]

theorem add_new (h : Stores e ops hs) (ho : InOrder ops hs) (hz : holds ops t = 0) :
    Stores (e.addThreadId t name) (ops ++ [.add t name]) (hs ++ [⟨t, name, ops.length⟩]) := by
  have hout : t ∉ hs.map Holder.thread := fun hm => by
    have hpos := ho.mem_iff.mp hm
    omega
  refine ⟨h.counter_add, fun t' n => ?_, ?_⟩
  · rw [LockEntry.lookup_name_addThreadId, h.lookup_name_eq_none hout]
    by_cases ht : t' = t
    · subst ht
      have hnone : ¬ ∃ x ∈ hs, x.thread = t' ∧ x.name = n := fun ⟨x, hx, hxt, _⟩ =>
        hout (List.mem_map.mpr ⟨x, hx, hxt⟩)
      simp only [if_pos, Option.getD_none, Option.some.injEq, List.mem_append, List.mem_singleton]
      constructor
      · rintro rfl
        exact ⟨_, .inr rfl, rfl, rfl⟩
      · rintro ⟨x, hx | rfl, hxt, hxn⟩
        · exact absurd ⟨x, hx, hxt, hxn⟩ hnone
        · exact hxn
    · rw [if_neg ht, h.name]
      constructor
      · rintro ⟨x, hx, hxt, hxn⟩
        exact ⟨x, List.mem_append_left _ hx, hxt, hxn⟩
      · rintro ⟨x, hx, hxt, hxn⟩
        rcases List.mem_append.mp hx with hx | hx
        · exact ⟨x, hx, hxt, hxn⟩
        · obtain rfl : x = ⟨t, name, ops.length⟩ := by simpa using hx
          exact absurd hxt.symm ht
  · have hq : t ∉ e.threadsQueue := fun hm => hout (h.mem_queue.mp hm)
    simp [LockEntry.addThreadId, List.eraseDups_append, List.removeAll, hq, h.queue, List.eraseDups_cons]

theorem add_held (h : Stores e ops hs) (ho : InOrder ops hs) (hz : holds ops t ≠ 0) :
    Stores (e.addThreadId t name) (ops ++ [.add t name]) hs := by
  have hmem : t ∈ hs.map Holder.thread := ho.complete t (Nat.pos_of_ne_zero hz)
  obtain ⟨x, hx, rfl⟩ := List.mem_map.mp hmem
  have hname := (h.name x.thread x.name).mpr ⟨x, hx, rfl, rfl⟩
  refine ⟨h.counter_add, fun t' n => ?_, ?_⟩
  · rw [LockEntry.lookup_name_addThreadId, hname, ← h.name]
    by_cases ht : t' = x.thread
    · subst ht
      simp [hname]
    · rw [if_neg ht]
  · have hq : x.thread ∈ e.threadsQueue := h.mem_queue.mpr hmem
    simp [LockEntry.addThreadId, List.eraseDups_append, List.removeAll, hq, h.queue]

theorem remove_none (h : Stores e ops hs) (hz : holds ops t = 0) : Stores e (ops ++ [.remove t]) hs := by
  refine ⟨fun t' => ?_, h.name, h.queue⟩
  rw [h.counter, holds_append_singleton, Op.count]
  by_cases ht : t = t'
  · subst ht
    simp [hz]
  · rw [if_neg ht]

theorem remove_last (h : Stores e ops hs) (hz : holds ops t = 1) :
    Stores ⟨e.thread2lockName.erase t, e.threadCounter.erase t, e.threadsQueue.filter (· ≠ t)⟩
      (ops ++ [.remove t]) (hs.filter fun x => x.thread ≠ t) := by
  refine ⟨fun t' => ?_, fun t' n => ?_, ?_⟩
  · rw [holds_append_singleton, Op.count]
    by_cases ht : t = t'
    · subst ht
      simp [hz]
    · rw [AList.lookup_erase_ne (Ne.symm ht), h.counter, if_neg ht]
  · by_cases ht : t' = t
    · subst ht
      simp only [AList.lookup_erase, List.mem_filter]
      constructor
      · intro hn
        cases hn
      · rintro ⟨x, ⟨-, hne⟩, rfl, -⟩
        simp at hne
    · rw [AList.lookup_erase_ne ht, h.name]
      constructor
      · rintro ⟨x, hx, rfl, rfl⟩
        exact ⟨x, List.mem_filter.mpr ⟨hx, by simpa using ht⟩, rfl, rfl⟩
      · rintro ⟨x, hx, hxt, hxn⟩
        exact ⟨x, (List.mem_filter.mp hx).1, hxt, hxn⟩
  · rw [eraseDups_filter, h.queue, List.filter_map]
    rfl

theorem remove_held {n : Nat} (h : Stores e ops hs) (hz : holds ops t = n + 2) :
    Stores { e with threadCounter := e.threadCounter.insert t (n + 1) } (ops ++ [.remove t]) hs := by
  refine ⟨fun t' => ?_, h.name, h.queue⟩
  rw [holds_append_singleton, Op.count]
  by_cases ht : t = t'
  · subst ht
    simp [hz]
  · rw [AList.lookup_insert_ne (Ne.symm ht), h.counter, if_neg ht]

theorem step (h : Stores e ops hs) (ho : InOrder ops hs) (op : Op String String) :
    ∃ e', lockStep e op = some e' ∧ Stores e' (ops ++ [op]) (advance ops hs op) := by
  cases op with
  | add t name =>
    refine ⟨_, rfl, ?_⟩
    by_cases hz : holds ops t = 0
    · simpa only [advance, if_pos hz] using h.add_new ho hz
    · simpa only [advance, if_neg hz] using h.add_held ho hz
  | remove t =>
    have hl := h.counter t
    rcases hz : holds ops t with - | - | n
    · have hr : lockStep e (.remove t) = some e := by
        simp [lockStep, LockEntry.removeThreadId, hl, hz]
      exact ⟨e, hr, by simpa [advance, hz] using h.remove_none hz⟩
    · have hr : lockStep e (.remove t) = some
          ⟨e.thread2lockName.erase t, e.threadCounter.erase t, e.threadsQueue.filter (· ≠ t)⟩ := by
        simp [lockStep, LockEntry.removeThreadId, hl, hz]
      exact ⟨_, hr, by simpa [advance, hz] using h.remove_last hz⟩
    · have hr : lockStep e (.remove t) = some
          { e with threadCounter := e.threadCounter.insert t (n + 1) } := by
        simp [lockStep, LockEntry.removeThreadId, hl, hz]
      exact ⟨_, hr, by simpa [advance, hz] using h.remove_held hz⟩

theorem run (h : Stores e ops hs) (ho : InOrder ops hs) (later : List (Op String String)) :
    ∃ e', run lockStep e later = some e' ∧ Stores e' (ops ++ later) (holdersFrom ops hs later) := by
  induction later generalizing e ops hs with
  | nil => exact ⟨e, rfl, by simpa [holdersFrom] using h⟩
  | cons op later ih =>
    obtain ⟨m, hm, hs'⟩ := h.step ho op
    obtain ⟨e', he, hh⟩ := ih hs' (ho.advance op)
    exact ⟨e', run_cons.mpr ⟨m, hm, he⟩, by simpa [holdersFrom] using hh⟩

theorem getFirstLockName_eq (h : Stores e ops hs) :
    e.getFirstLockName = hs.head?.map Holder.name := by
  have hhead : e.threadsQueue.head? = hs.head?.map Holder.thread := by
    rw [← head_eraseDups, h.queue, List.head?_map]
  cases hs with
  | nil => simp [LockEntry.getFirstLockName, hhead]
  | cons x rest =>
    have hname := (h.name x.thread x.name).mpr ⟨x, by simp, rfl, rfl⟩
    simpa [LockEntry.getFirstLockName, hhead] using hname

theorem hasNoThreads_iff (h : Stores e ops hs) (ho : InOrder ops hs) :
    e.hasNoThreads = true ↔ ∀ t, holds ops t = 0 := by
  rw [← ho.head_eq_none_iff, LockEntry.hasNoThreads, List.isEmpty_iff, ← List.head?_eq_none_iff,
    ← head_eraseDups, h.queue, List.head?_map, Option.map_eq_none_iff]

end Stores

theorem stores_new : Stores .new [] [] := by
  constructor <;> simp [LockEntry.new]

/-- The name that a lock is renewed under is the one given by its longest holder when it came, and
there is none when nobody holds the lock. -/
theorem getFirstLockName_longestHeld (ops : List (Op String String)) :
    ∃ e, run lockStep .new ops = some e ∧
      (e.getFirstLockName = none ↔ ∀ t, holds ops t = 0) ∧
      (∀ name, e.getFirstLockName = some name ↔ LongestHeld ops name) ∧
      (e.hasNoThreads = true ↔ ∀ t, holds ops t = 0) := by
  have ho := inOrder_holders ops
  obtain ⟨e, he, hs⟩ : ∃ e, run lockStep .new ops = some e ∧ Stores e ops (holders ops) :=
    stores_new.run (inOrder_holders []) ops
  refine ⟨e, he, ?_, fun name => ?_, hs.hasNoThreads_iff ho⟩
  · rw [hs.getFirstLockName_eq, Option.map_eq_none_iff]
    exact ho.head_eq_none_iff
  · rw [hs.getFirstLockName_eq]
    exact ho.head_name_iff

end Redisson
