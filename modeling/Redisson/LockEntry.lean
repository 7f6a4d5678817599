import Redisson.LabelledRuns
import Redisson.ReentrantHolds
import Mathlib.Data.List.AList

/-! `LockEntry`, the renewal record of one lock: a counter and a lock name for each thread that
holds it, and a queue of thread ids that a reentrant thread is in more than once. -/

namespace Redisson

open LabelledRuns ReentrantHolds

structure LockEntry where
  thread2lockName : AList fun _ : String => String
  threadCounter : AList fun _ : String => Nat
  threadsQueue : List String

namespace LockEntry

def new : LockEntry := ⟨∅, ∅, []⟩

/-- A counter is a `usize`, and is at most the number of times its id is in the queue. -/
def addThreadId (e : LockEntry) (threadId lockName : String) : LockEntry where
  threadCounter := e.threadCounter.insert threadId ((e.threadCounter.lookup threadId).getD 0 + 1)
  threadsQueue := e.threadsQueue ++ [threadId]
  thread2lockName :=
    match e.thread2lockName.lookup threadId with
    | some _ => e.thread2lockName
    | none => e.thread2lockName.insert threadId lockName

/-- There is no result when the counter would be decremented below zero. -/
def removeThreadId (e : LockEntry) (threadId : String) : Option LockEntry :=
  match e.threadCounter.lookup threadId with
  | none => some e
  | some 0 => none
  | some 1 => some
      { threadCounter := e.threadCounter.erase threadId
        thread2lockName := e.thread2lockName.erase threadId
        threadsQueue := e.threadsQueue.filter fun t => t ≠ threadId }
  -- the queue keeps the id of the hold that is given up
  | some (counter + 2) => some { e with threadCounter := e.threadCounter.insert threadId (counter + 1) }

def hasNoThreads (e : LockEntry) : Bool := e.threadsQueue.isEmpty

def getFirstLockName (e : LockEntry) : Option String :=
  e.threadsQueue.head?.bind e.thread2lockName.lookup

/-- The three containers are in step. -/
structure Consistent (e : LockEntry) : Prop where
  named : ∀ t, t ∈ e.thread2lockName ↔ t ∈ e.threadCounter
  queued : ∀ t, t ∈ e.threadsQueue ↔ t ∈ e.threadCounter
  counted : ∀ t n, e.threadCounter.lookup t = some n → 1 ≤ n ∧ n ≤ e.threadsQueue.count t

end LockEntry

def lockStep (e : LockEntry) : Op String String → Option LockEntry
  | .add t name => some (e.addThreadId t name)
  | .remove t => e.removeThreadId t

namespace LockEntry

variable {e e' : LockEntry} {t t' name : String}

theorem lookup_addThreadId : (e.addThreadId t name).threadCounter.lookup t' =
    if t' = t then some ((e.threadCounter.lookup t).getD 0 + 1) else e.threadCounter.lookup t' := by
  by_cases ht : t' = t
  · subst ht
    simp [addThreadId]
  · simp [addThreadId, ht, AList.lookup_insert_ne ht]

theorem lookup_name_addThreadId : (e.addThreadId t name).thread2lockName.lookup t' =
    if t' = t then some ((e.thread2lockName.lookup t).getD name) else e.thread2lockName.lookup t' := by
  cases hn : e.thread2lockName.lookup t with
  | some n =>
    by_cases ht : t' = t
    · subst ht
      simp [addThreadId, hn]
    · simp [addThreadId, hn, ht]
  | none =>
    by_cases ht : t' = t
    · subst ht
      simp [addThreadId, hn]
    · simp [addThreadId, hn, ht, AList.lookup_insert_ne ht]

/-- What `remove_thread_id` can do, by the counter of the thread. -/
theorem removeThreadId_cases (h : e.removeThreadId t = some e') :
    (e.threadCounter.lookup t = none ∧ e' = e) ∨
    (e.threadCounter.lookup t = some 1 ∧
      e' = ⟨e.thread2lockName.erase t, e.threadCounter.erase t, e.threadsQueue.filter (· ≠ t)⟩) ∨
    ∃ n, e.threadCounter.lookup t = some (n + 2) ∧
      e' = { e with threadCounter := e.threadCounter.insert t (n + 1) } := by
  unfold removeThreadId at h
  split at h
  · next hl => exact .inl ⟨hl, (Option.some.inj h).symm⟩
  · cases h
  · next hl => exact .inr (.inl ⟨hl, (Option.some.inj h).symm⟩)
  · next n hl => exact .inr (.inr ⟨n, hl, (Option.some.inj h).symm⟩)

theorem consistent_new : new.Consistent := by
  constructor <;> simp [new]

theorem Consistent.addThreadId (h : e.Consistent) : (e.addThreadId t name).Consistent := by
  have hcounter : ∀ t', t' ∈ (e.addThreadId t name).threadCounter ↔ t' = t ∨ t' ∈ e.threadCounter := by
    intro t'
    rw [← AList.lookup_isSome, lookup_addThreadId, ← AList.lookup_isSome]
    by_cases ht : t' = t <;> simp [ht]
  constructor
  · intro t'
    rw [hcounter, ← h.named, ← AList.lookup_isSome, lookup_name_addThreadId, ← AList.lookup_isSome]
    by_cases ht : t' = t <;> simp [ht]
  · intro t'
    rw [hcounter, ← h.queued]
    simp [LockEntry.addThreadId, or_comm]
  · intro t' n hn
    rw [lookup_addThreadId] at hn
    by_cases ht : t' = t
    · subst ht
      rw [if_pos rfl] at hn
      obtain rfl := Option.some.inj hn
      have hle : (e.threadCounter.lookup t').getD 0 ≤ e.threadsQueue.count t' := by
        cases hl : e.threadCounter.lookup t' with
        | none => simp
        | some m => exact (h.counted t' m hl).2
      simp only [LockEntry.addThreadId, List.count_append, List.count_singleton_self]
      omega
    · rw [if_neg ht] at hn
      have hne : (t == t') = false := by simpa using Ne.symm ht
      simpa [LockEntry.addThreadId, List.count_append, List.count_singleton, hne] using h.counted t' n hn

theorem Consistent.removeThreadId (h : e.Consistent) (hr : e.removeThreadId t = some e') :
    e'.Consistent := by
  rcases removeThreadId_cases hr with ⟨-, rfl⟩ | ⟨-, rfl⟩ | ⟨n, hl, rfl⟩
  · exact h
  · -- the last hold: the thread leaves all three
    constructor
    · intro t'
      simp [AList.mem_erase, h.named]
    · intro t'
      simp [AList.mem_erase, h.queued, and_comm]
    · intro t' m hm
      have hne : t' ≠ t := by
        rintro rfl
        simp at hm
      rw [AList.lookup_erase_ne hne] at hm
      simpa [List.count_filter, hne] using h.counted t' m hm
  · -- one of several: only the counter moves
    have hcounter : ∀ t', t' ∈ e.threadCounter.insert t (n + 1) ↔ t' ∈ e.threadCounter := by
      intro t'
      have ht : t ∈ e.threadCounter := AList.lookup_isSome.mp (by simp [hl])
      rw [AList.mem_insert]
      exact ⟨fun hh => hh.elim (fun he => he ▸ ht) id, .inr⟩
    constructor
    · exact fun t' => (h.named t').trans (hcounter t').symm
    · exact fun t' => (h.queued t').trans (hcounter t').symm
    · intro t' m hm
      by_cases ht : t' = t
      · subst ht
        obtain rfl : n + 1 = m := by simpa using hm
        have hc := h.counted t' (n + 2) hl
        dsimp only at hc ⊢
        omega
      · rw [AList.lookup_insert_ne ht] at hm
        exact h.counted t' m hm

/-- The decrement never underflows. -/
theorem Consistent.removable (h : e.Consistent) (t : String) : ∃ e', e.removeThreadId t = some e' := by
  cases hl : e.threadCounter.lookup t with
  | none => exact ⟨e, by simp [LockEntry.removeThreadId, hl]⟩
  | some n =>
    match n, (h.counted t n hl).1 with
    | 1, _ | n + 2, _ => exact Option.isSome_iff_exists.mp (by simp [LockEntry.removeThreadId, hl])

theorem Consistent.step (h : e.Consistent) (op : Op String String) :
    ∃ e', lockStep e op = some e' ∧ e'.Consistent := by
  cases op with
  | add t name => exact ⟨_, rfl, h.addThreadId⟩
  | remove t =>
    obtain ⟨e', he⟩ := h.removable t
    exact ⟨e', he, h.removeThreadId he⟩

theorem Consistent.front_named (h : e.Consistent) (ht : e.threadsQueue.head? = some t) :
    ∃ name, e.thread2lockName.lookup t = some name := by
  have hmem : t ∈ e.thread2lockName :=
    (h.named t).mpr ((h.queued t).mp (List.mem_of_mem_head? ht))
  exact Option.isSome_iff_exists.mp (AList.lookup_isSome.mpr hmem)

theorem Consistent.remove_absent (h : e.Consistent) (ht : t ∉ e.threadsQueue) :
    e.removeThreadId t = some e := by
  have hl : e.threadCounter.lookup t = none :=
    AList.lookup_eq_none.mpr fun hmem => ht ((h.queued t).mpr hmem)
  simp [LockEntry.removeThreadId, hl]

theorem Consistent.run (h : e.Consistent) (ops : List (Op String String)) :
    ∃ e', run lockStep e ops = some e' ∧ e'.Consistent := by
  induction ops generalizing e with
  | nil => exact ⟨e, rfl, h⟩
  | cons op ops ih =>
    obtain ⟨m, hm, hc⟩ := h.step op
    obtain ⟨e', he, hc'⟩ := ih hc
    exact ⟨e', run_cons.mpr ⟨m, hm, he⟩, hc'⟩

end LockEntry

open LockEntry in
/-- Every sequence of calls runs through, and leaves the containers of the entry in step. -/
theorem lockEntry_consistent (ops : List (Op String String)) :
    ∃ e, run lockStep .new ops = some e ∧ e.Consistent ∧
      (∀ t, ∃ e', e.removeThreadId t = some e') ∧
      (∀ t, e.threadsQueue.head? = some t → ∃ name, e.thread2lockName.lookup t = some name) ∧
      ∀ t, t ∉ e.threadsQueue → e.removeThreadId t = some e := by
  obtain ⟨e, he, hc⟩ := consistent_new.run ops
  exact ⟨e, he, hc, hc.removable, fun t => hc.front_named, fun t => hc.remove_absent⟩

end Redisson
