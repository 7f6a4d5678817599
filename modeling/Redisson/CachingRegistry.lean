import Redisson.CacheEviction
import Redisson.LabelledRuns
import Mathlib.Data.List.AList
import Mathlib.Logic.Function.Basic

/-! Whom the keys of `caching_instances` denote. The map is keyed by address, and an address may
be given out again once the instance that had it is gone; the map keeps its instances alive. -/

namespace Redisson

open LabelledRuns

/-- The instances are numbered as they are made. `handles` counts the `Arc`s of each of them
outside the map. -/
structure CachingHeap where
  next : Nat
  handles : Nat → Nat
  cachingInstances : AList fun _ : Nat => Nat

/-- `makeInstance`, `clone` and `drop` are what the callers of `ServiceManager` do to their
`Arc`s; the other two are its methods. -/
inductive CachingHeapEvent
  | makeInstance
  | clone (k : Nat)
  | drop (k : Nat)
  | addClientSideCaching (k : Nat)
  | removeClientSideCaching (k : Nat)

namespace CachingHeap

def new : CachingHeap := ⟨0, fun _ => 0, ∅⟩

def hasCachingInstances (s : CachingHeap) : Bool := !s.cachingInstances.entries.isEmpty

/-- The `clear_cache` calls of `evict_client_side_caching`. -/
def evictClientSideCaching (s : CachingHeap) (name : String) : List (Nat × String) :=
  s.cachingInstances.entries.map fun entry => (entry.2, name)

def setHandles (s : CachingHeap) (k n : Nat) : CachingHeap :=
  { s with handles := Function.update s.handles k n }

def allocate (s : CachingHeap) : CachingHeap := { s.setHandles s.next 1 with next := s.next + 1 }

/-- `add_client_side_caching` takes over the `Arc` of its caller, and drops the one that the map
had under the key. -/
def add (s : CachingHeap) (a k : Nat) : CachingHeap :=
  { s.setHandles k (s.handles k - 1) with cachingInstances := s.cachingInstances.insert a k }

def remove (s : CachingHeap) (a : Nat) : CachingHeap :=
  { s with cachingInstances := s.cachingInstances.erase a }

def Live (s : CachingHeap) (k : Nat) : Prop :=
  0 < s.handles k ∨ ∃ a, s.cachingInstances.lookup a = some k

section Steps

variable (address : Nat → Nat)

/-- The `k`-th instance is put at `address k`. -/
def heapStep (s : CachingHeap) : CachingHeapEvent → Option CachingHeap
  | .makeInstance => some s.allocate
  | .clone k => if 0 < s.handles k then some (s.setHandles k (s.handles k + 1)) else none
  | .drop k => if 0 < s.handles k then some (s.setHandles k (s.handles k - 1)) else none
  | .addClientSideCaching k => if 0 < s.handles k then some (s.add (address k) k) else none
  | .removeClientSideCaching k => if 0 < s.handles k then some (s.remove (address k)) else none

/-- The allocator gives out no address of a live instance. -/
def Allocates (s : CachingHeap) : CachingHeapEvent → Prop
  | .makeInstance => ∀ j, s.Live j → address j ≠ address s.next
  | _ => True

end Steps

def register (ks : List Nat) : CachingHeapEvent → List Nat
  | .addClientSideCaching k => ks.insert k
  | .removeClientSideCaching k => ks.erase k
  | _ => ks

/-- The instances that were added and not removed since. -/
def registered (es : List CachingHeapEvent) : List Nat := es.foldl register []

/-- The map has the registered instances, each under its own address, and no two live instances
share an address. -/
structure Registers (address : Nat → Nat) (s : CachingHeap) (ks : List Nat) : Prop where
  lookup_iff : ∀ a k, s.cachingInstances.lookup a = some k ↔ a = address k ∧ k ∈ ks
  distinct : ∀ j k, s.Live j → s.Live k → address j = address k → j = k
  made : ∀ k, s.Live k → k < s.next
  nodup : ks.Nodup

variable {address : Nat → Nat} {s s' : CachingHeap} {ks : List Nat} {e : CachingHeapEvent}

theorem registers_new : new.Registers address [] where
  lookup_iff a k := by simp [new]
  distinct j k hj := by simp [Live, new] at hj
  made k hk := by simp [Live, new] at hk
  nodup := List.nodup_nil

theorem Registers.live_of_mem (h : s.Registers address ks) {k : Nat} (hk : k ∈ ks) : s.Live k :=
  .inr ⟨address k, (h.lookup_iff _ _).mpr ⟨rfl, hk⟩⟩

theorem live_setHandles {k n j : Nat} (hk : 0 < s.handles k) (hj : (s.setHandles k n).Live j) :
    s.Live j := by
  rcases hj with hj | hj
  · by_cases hjk : j = k
    · exact .inl (hjk ▸ hk)
    · exact .inl (by simpa [setHandles, hjk] using hj)
  · exact .inr hj

theorem Registers.setHandles (h : s.Registers address ks) {k : Nat} (hk : 0 < s.handles k)
    (n : Nat) : (s.setHandles k n).Registers address ks where
  lookup_iff := h.lookup_iff
  distinct i j hi hj := h.distinct i j (live_setHandles hk hi) (live_setHandles hk hj)
  made j hj := h.made j (live_setHandles hk hj)
  nodup := h.nodup

theorem Registers.allocate (h : s.Registers address ks)
    (hfresh : ∀ j, s.Live j → address j ≠ address s.next) : s.allocate.Registers address ks := by
  have hlive : ∀ k, s.allocate.Live k → k = s.next ∨ s.Live k := by
    rintro k (hk | hk)
    · by_cases hks : k = s.next
      · exact .inl hks
      · exact .inr (.inl (by simpa [CachingHeap.allocate, CachingHeap.setHandles, hks] using hk))
    · exact .inr (.inr hk)
  refine ⟨h.lookup_iff, fun j k hj hk hjk => ?_, fun k hk => ?_, h.nodup⟩
  · rcases hlive j hj with rfl | hj'
    · rcases hlive k hk with rfl | hk'
      · rfl
      · exact absurd hjk.symm (hfresh k hk')
    · rcases hlive k hk with rfl | hk'
      · exact absurd hjk (hfresh j hj')
      · exact h.distinct j k hj' hk' hjk
  · rcases hlive k hk with rfl | hk'
    · exact Nat.lt_succ_self _
    · exact Nat.lt_succ_of_lt (h.made k hk')

/-- The key of an instance that is being added is in the map only if the instance is. -/
theorem Registers.add (h : s.Registers address ks) {k : Nat} (hk : 0 < s.handles k) :
    (s.add (address k) k).Registers address (ks.insert k) := by
  have hlook : ∀ a, (s.add (address k) k).cachingInstances.lookup a =
      if a = address k then some k else s.cachingInstances.lookup a := by
    intro a
    by_cases ha : a = address k
    · subst ha
      simp [CachingHeap.add]
    · simp [CachingHeap.add, ha, AList.lookup_insert_ne ha]
  have hlive : ∀ j, (s.add (address k) k).Live j → s.Live j := by
    rintro j (hj | ⟨a, ha⟩)
    · exact live_setHandles hk (.inl hj)
    · rw [hlook] at ha
      by_cases hak : a = address k
      · rw [if_pos hak] at ha
        exact .inl (Option.some.inj ha ▸ hk)
      · rw [if_neg hak] at ha
        exact .inr ⟨a, ha⟩
  refine ⟨fun a j => ?_, fun i j hi hj => h.distinct i j (hlive i hi) (hlive j hj),
    fun j hj => h.made j (hlive j hj), h.nodup.insert⟩
  rw [hlook, List.mem_insert_iff]
  by_cases ha : a = address k
  · rw [if_pos ha]
    constructor
    · intro hj
      obtain rfl := Option.some.inj hj
      exact ⟨ha, .inl rfl⟩
    · rintro ⟨haj, rfl | hj⟩
      · rfl
      · exact congrArg some (h.distinct k j (.inl hk) (h.live_of_mem hj) (ha.symm.trans haj))
  · rw [if_neg ha, h.lookup_iff]
    refine and_congr_right fun haj => ⟨.inr, fun hj => hj.resolve_left fun hjk => ha ?_⟩
    rw [haj, hjk]

theorem Registers.remove (h : s.Registers address ks) {k : Nat} (hk : 0 < s.handles k) :
    (s.remove (address k)).Registers address (ks.erase k) := by
  have hlook : ∀ a, (s.remove (address k)).cachingInstances.lookup a =
      if a = address k then none else s.cachingInstances.lookup a := by
    intro a
    by_cases ha : a = address k
    · subst ha
      simp [CachingHeap.remove]
    · simp [CachingHeap.remove, ha, AList.lookup_erase_ne ha]
  have hlive : ∀ j, (s.remove (address k)).Live j → s.Live j := by
    rintro j (hj | ⟨a, ha⟩)
    · exact .inl hj
    · rw [hlook] at ha
      by_cases hak : a = address k
      · rw [if_pos hak] at ha
        cases ha
      · rw [if_neg hak] at ha
        exact .inr ⟨a, ha⟩
  refine ⟨fun a j => ?_, fun i j hi hj => h.distinct i j (hlive i hi) (hlive j hj),
    fun j hj => h.made j (hlive j hj), h.nodup.erase k⟩
  rw [hlook, h.nodup.mem_erase_iff]
  by_cases ha : a = address k
  · rw [if_pos ha]
    refine iff_of_false nofun ?_
    rintro ⟨haj, hne, hj⟩
    exact hne (h.distinct j k (h.live_of_mem hj) (.inl hk) (haj.symm.trans ha))
  · rw [if_neg ha, h.lookup_iff]
    refine and_congr_right fun haj => ⟨fun hj => ⟨fun hjk => ha ?_, hj⟩, And.right⟩
    rw [haj, hjk]

theorem registers_step (h : s.Registers address ks) (ha : s.Allocates address e)
    (hs : heapStep address s e = some s') : s'.Registers address (register ks e) := by
  cases e with
  | makeInstance =>
    obtain rfl := Option.some.inj hs
    exact h.allocate ha
  | clone k | drop k =>
    obtain ⟨hk, hs⟩ := Option.ite_none_right_eq_some.mp hs
    obtain rfl := Option.some.inj hs
    exact h.setHandles hk _
  | addClientSideCaching k =>
    obtain ⟨hk, hs⟩ := Option.ite_none_right_eq_some.mp hs
    obtain rfl := Option.some.inj hs
    exact h.add hk
  | removeClientSideCaching k =>
    obtain ⟨hk, hs⟩ := Option.ite_none_right_eq_some.mp hs
    obtain rfl := Option.some.inj hs
    exact h.remove hk

theorem registers_run {es : List CachingHeapEvent} (h : s.Registers address ks)
    (hrun : GuardedRun (heapStep address) (Allocates address) s es s') :
    s'.Registers address (es.foldl register ks) := by
  induction es generalizing s ks with
  | nil =>
    obtain rfl : s = s' := hrun
    exact h
  | cons e es ih =>
    obtain ⟨ha, m, hm, hr⟩ := hrun
    exact ih (registers_step h ha hm) hr

theorem Registers.evict_perm (h : s.Registers address ks) (name : String) :
    (s.evictClientSideCaching name).Perm (ks.map (·, name)) := by
  have hentry : ∀ e ∈ s.cachingInstances.entries, e.1 = address e.2 ∧ e.2 ∈ ks := fun e he =>
    (h.lookup_iff e.1 e.2).mp (AList.mem_lookup_iff.mpr he)
  have hcalls : (s.evictClientSideCaching name).Nodup := by
    refine s.cachingInstances.nodupKeys.nodup.map_on fun e he e' he' hee => ?_
    have hk : e.2 = e'.2 := congrArg Prod.fst hee
    exact Sigma.ext (by rw [(hentry e he).1, (hentry e' he').1, hk]) (heq_of_eq hk)
  have hks : (ks.map (·, name)).Nodup := h.nodup.map fun j k hjk => congrArg Prod.fst hjk
  refine (List.perm_ext_iff_of_nodup hcalls hks).mpr fun x => ?_
  constructor
  · intro hx
    obtain ⟨e, he, rfl⟩ := List.mem_map.mp hx
    exact List.mem_map_of_mem (hentry e he).2
  · intro hx
    obtain ⟨k, hk, rfl⟩ := List.mem_map.mp hx
    have hlook := (h.lookup_iff (address k) k).mpr ⟨rfl, hk⟩
    exact List.mem_map.mpr ⟨_, AList.mem_lookup_iff.mp hlook, rfl⟩

/-! The map is the set of its keys in which `CachingInstances` models it. -/

def track (address : Nat → Nat) (c : CachingInstances) : CachingHeapEvent → CachingInstances
  | .addClientSideCaching k => c.addClientSideCaching (address k)
  | .removeClientSideCaching k => c.removeClientSideCaching (address k)
  | _ => c

theorem track_step {c : CachingInstances} (h : s.Registers address ks)
    (hc : c.addresses.Perm (ks.map address)) (hs : heapStep address s e = some s') :
    (track address c e).addresses.Perm ((register ks e).map address) := by
  have hmem : ∀ k, 0 < s.handles k → (address k ∈ c.addresses ↔ k ∈ ks) := by
    intro k hk
    rw [hc.mem_iff, List.mem_map]
    constructor
    · rintro ⟨j, hj, hjk⟩
      exact h.distinct j k (h.live_of_mem hj) (.inl hk) hjk ▸ hj
    · exact fun hk => ⟨k, hk, rfl⟩
  cases e with
  | addClientSideCaching k =>
    obtain ⟨hk, -⟩ := Option.ite_none_right_eq_some.mp hs
    by_cases hks : k ∈ ks
    · simpa [track, CachingInstances.addClientSideCaching, register, hks, (hmem k hk).mpr hks]
        using hc
    · have hnot : address k ∉ c.addresses := fun ha => hks ((hmem k hk).mp ha)
      simpa [track, CachingInstances.addClientSideCaching, register, hks, hnot] using hc
  | removeClientSideCaching k =>
    obtain ⟨hk, -⟩ := Option.ite_none_right_eq_some.mp hs
    by_cases hks : k ∈ ks
    · have hsplit : (ks.map address).Perm (address k :: (ks.erase k).map address) :=
        (List.perm_cons_erase hks).map address
      have herase := (hc.trans hsplit).erase (address k)
      rwa [List.erase_cons_head] at herase
    · have hnot : address k ∉ c.addresses := fun ha => hks ((hmem k hk).mp ha)
      simpa [track, CachingInstances.removeClientSideCaching, register, List.erase_of_not_mem hks,
        List.erase_of_not_mem hnot] using hc
  | _ => exact hc

theorem track_run {es : List CachingHeapEvent} {c : CachingInstances}
    (h : s.Registers address ks) (hc : c.addresses.Perm (ks.map address))
    (hrun : GuardedRun (heapStep address) (Allocates address) s es s') :
    (es.foldl (track address) c).addresses.Perm ((es.foldl register ks).map address) := by
  induction es generalizing s ks c with
  | nil => exact hc
  | cons e es ih =>
    obtain ⟨ha, m, hm, hr⟩ := hrun
    exact ih (registers_step h ha hm) (track_step h hc hm) hr

/-- However instances come, go and reuse addresses, `evict_client_side_caching` calls each one
that was added and not removed since, once, and no other; by address they are the same. -/
theorem evict_registered {es : List CachingHeapEvent}
    (hrun : GuardedRun (heapStep address) (Allocates address) new es s) (name : String) :
    (s.evictClientSideCaching name).Perm ((registered es).map (·, name)) ∧
      (s.hasCachingInstances = true ↔ registered es ≠ []) ∧
      ((es.foldl (track address) .empty).evictClientSideCaching name).Perm
        ((registered es).map fun k => (address k, name)) := by
  have hregisters : s.Registers address (registered es) := registers_run registers_new hrun
  have hperm := hregisters.evict_perm name
  have htrack := track_run (c := .empty) registers_new (.refl []) hrun
  refine ⟨hperm, ?_, ?_⟩
  · have hlength := hperm.length_eq
    simp only [evictClientSideCaching, List.length_map] at hlength
    rw [hasCachingInstances, Bool.not_eq_true', List.isEmpty_eq_false_iff,
      ← List.length_pos_iff, ← List.length_pos_iff, hlength]
  · have hmap := htrack.map (·, name)
    rwa [List.map_map] at hmap

/-! An instance that is registered, removed and dropped, and a second one at its address. -/

def reuse : List CachingHeapEvent :=
  [.makeInstance, .clone 0, .addClientSideCaching 0, .removeClientSideCaching 0, .drop 0,
    .makeInstance, .addClientSideCaching 1]

theorem evict_registered_reuse : ∃ s, run (heapStep fun _ => 7) new reuse = some s ∧
    (s.evictClientSideCaching "foo").Perm [(1, "foo")] := by
  have hrun : ∃ s, GuardedRun (heapStep fun _ => 7) (Allocates fun _ => 7) new reuse s := by
    refine ⟨_, ?_, _, rfl, trivial, _, rfl, trivial, _, rfl, trivial, _, rfl, trivial, _, rfl, ?_,
      _, rfl, trivial, _, rfl, rfl⟩
    · rintro j (hj | ⟨a, ha⟩)
      · cases hj
      · cases ha
    · rintro j (hj | ⟨a, ha⟩)
      · match j with
        | 0 => exact absurd hj (Nat.lt_irrefl 0)
        | j + 1 => exact absurd hj (Nat.lt_irrefl 0)
      · have hnone : (AList.erase 7 (AList.insert 7 0 (∅ : AList fun _ : Nat => Nat))).lookup a =
            none := by
          by_cases ha7 : a = 7
          · subst ha7
            exact AList.lookup_erase _ _
          · rw [AList.lookup_erase_ne ha7, AList.lookup_insert_ne ha7, AList.lookup_empty]
        cases hnone.symm.trans ha
  obtain ⟨s, hs⟩ := hrun
  exact ⟨s, hs.run_eq, (evict_registered hs "foo").1⟩

end CachingHeap

end Redisson
