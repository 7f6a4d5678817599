import Redisson.InMemoryBatch
import Redisson.RoutingAgreement

/-! The transactions of an IN_MEMORY_ATOMIC batch on a cluster. MULTI and EXEC go to the
slot under which the group of a primary was opened, the commands between them to all the
slots of that primary; Redis Cluster refuses an EXEC whose keys span slots. -/

namespace Redisson

namespace Group

def SingleSlot (keyslot : Key → Slot) (g : Group) : Prop :=
  ∀ d ∈ g.commands, ∀ d' ∈ g.commands, ∀ key key', d.cmd.routingKey = some key →
    d'.cmd.routingKey = some key' → keyslot key = keyslot key'

end Group

section Transactions

variable {sha1 : String → String} (svc : BatchService) (env : Environment sha1) (q : Queue)

/-- The groups that are sent between MULTI and EXEC. -/
def transactions : List Group :=
  match prepare svc env q with
  | .error _ => []
  | .ok groups =>
    if svc.options.isAtomic then groups.filter fun g => (env.enqueueError g.mse.primary).isNone
    else []

def SingleSlotTransactions : Prop := ∀ g ∈ transactions svc env q, g.SingleSlot env.keyslot

variable {svc env q}

/-- These are the pipelines of the batch, whatever the order of its tasks. -/
theorem executeInMemory_pipelines (ha : svc.options.isAtomic = true) (hq : q.entries ≠ [])
    (sched : Schedule) : (executeInMemory svc env q sched).pipelines.Perm
      ((transactions svc env q).map fun g => (g.mse.primary, g.pipeline svc)) := by
  cases hp : prepare svc env q with
  | error e => simp [executeInMemory, hq, hp, transactions]
  | ok groups =>
    simp only [executeInMemory_ok hq hp, runGroups, transactions, hp, ha, if_true]
    exact ((sched.order_perm groups).filter _).map _

theorem prepare_primaries_nodup {groups : List Group} (hp : prepare svc env q = .ok groups) :
    (groups.map (·.mse.primary)).Nodup := by
  obtain ⟨nodeMap, hn, rfl⟩ := prepare_ok hp
  have hperm := (env.iterate_perm nodeMap).map (·.mse.primary)
  have hnodup := hperm.nodup_iff.mpr (groupEntries_primaries_nodup hn)
  simpa [Function.comp_def] using hnodup

theorem mem_transactions {g : Group} : g ∈ transactions svc env q ↔ svc.options.isAtomic = true ∧
    env.enqueueError g.mse.primary = none ∧ ∃ groups, prepare svc env q = .ok groups ∧ g ∈ groups := by
  cases hp : prepare svc env q with
  | error e => simp [transactions, hp]
  | ok groups =>
    cases ha : svc.options.isAtomic <;> simp [transactions, hp, ha, and_comm]

end Transactions

section Cluster

variable {sha1 : String → String} {svc : BatchService} {env : Environment sha1} {q : Queue}
  {table : Slot → Option Server} {hosts : List Server} {groups : List Group}

/-- On one routing table a queued command goes to the group of the primary that owns its slot. -/
theorem exists_group_of_owner (ht : ∀ t, env.topologyAt t = .cluster table hosts)
    (hp : prepare svc env q = .ok groups) {d : BatchCommandData} (hd : d ∈ q.entries) {node : Server}
    (hown : table (d.slot env.keyslot) = some node) :
    ∃ g ∈ groups, g.mse.primary = node ∧ d.loaded svc.useScriptCache sha1 ∈ g.commands := by
  have hmem := (prepare_commands_perm hp).mem_iff.mpr
    (List.mem_map_of_mem (f := (·.loaded svc.useScriptCache sha1)) hd)
  obtain ⟨g, hg, hm⟩ := List.mem_flatMap.mp hmem
  have hhome := (prepare_homed ht hp g hg).commands _ hm
  have hslot : (d.loaded svc.useScriptCache sha1).slot env.keyslot = d.slot env.keyslot := by
    simp [BatchCommandData.slot]
  rw [hslot, hown] at hhome
  exact ⟨g, hg, (Option.some.inj hhome).symm, hm⟩

theorem exists_queued {g : Group} (ht : ∀ t, env.topologyAt t = .cluster table hosts)
    (hp : prepare svc env q = .ok groups) (hg : g ∈ groups) {d : BatchCommandData} (hd : d ∈ g.commands) :
    ∃ d' ∈ q.entries, d'.cmd.routingKey = d.cmd.routingKey ∧
      table (d'.slot env.keyslot) = some g.mse.primary := by
  have hmem := (prepare_commands_perm hp).mem_iff.mp (List.mem_flatMap.mpr ⟨g, hg, hd⟩)
  obtain ⟨d', hd', rfl⟩ := List.mem_map.mp hmem
  have hhome := (prepare_homed ht hp g hg).commands _ hd
  exact ⟨d', hd', by simp, by simpa [BatchCommandData.slot] using hhome⟩

theorem slot_of_key {keyslot : Key → Slot} {d : BatchCommandData} {key : Key}
    (h : d.cmd.routingKey = some key) : d.slot keyslot = keyslot key := by
  simp [BatchCommandData.slot, h]

/-- Every transaction of a batch stays in one slot exactly when no two queued commands whose
keys belong to one primary hash to different slots. -/
theorem singleSlotTransactions_iff (ht : ∀ t, env.topologyAt t = .cluster table hosts) :
    SingleSlotTransactions svc env q ↔
      (svc.options.isAtomic = true → (∃ groups, prepare svc env q = .ok groups) →
        ∀ d ∈ q.entries, ∀ d' ∈ q.entries, ∀ key key', d.cmd.routingKey = some key →
          d'.cmd.routingKey = some key' → ∀ node, table (env.keyslot key) = some node →
          table (env.keyslot key') = some node → env.enqueueError node = none →
          env.keyslot key = env.keyslot key') := by
  constructor
  · rintro h ha ⟨groups, hp⟩ d hd d' hd' key key' hk hk' node hown hown' hsent
    obtain ⟨g, hg, rfl, hm⟩ := exists_group_of_owner ht hp hd (by rwa [slot_of_key hk])
    obtain ⟨g', hg', hprimary, hm'⟩ := exists_group_of_owner ht hp hd' (by rwa [slot_of_key hk'])
    obtain rfl : g' = g := List.inj_on_of_nodup_map (prepare_primaries_nodup hp) hg' hg hprimary
    have hsingle := h g' (mem_transactions.mpr ⟨ha, hsent, groups, hp, hg'⟩)
    exact hsingle _ hm _ hm' key key' (by simpa using hk) (by simpa using hk')
  · intro h g hg d hd d' hd' key key' hk hk'
    obtain ⟨ha, hsent, groups, hp, hg⟩ := mem_transactions.mp hg
    obtain ⟨e, he, hkey, hown⟩ := exists_queued ht hp hg hd
    obtain ⟨e', he', hkey', hown'⟩ := exists_queued ht hp hg hd'
    rw [← hkey] at hk
    rw [← hkey'] at hk'
    rw [slot_of_key hk] at hown
    rw [slot_of_key hk'] at hown'
    exact h ha ⟨groups, hp⟩ e he e' he' key key' hk hk' _ hown hown' hsent

end Cluster

/-! Writes on the two-node cluster: two to one slot of the upper node beside one to the lower
node, and two to different slots of the upper node. -/

def taggedWrites : Queue :=
  ⟨[⟨.set (utf8Bytes "\x7bfoo\x7d1") (.string "1") none none, 0⟩,
    ⟨.set (utf8Bytes "bar") (.string "2") none none, 1⟩,
    ⟨.set (utf8Bytes "foo") (.string "3") none none, 2⟩], by decide⟩

theorem singleSlotTransactions_tagged :
    SingleSlotTransactions atomicService clusterEnvironment taggedWrites := by
  have ht : ∀ t, clusterEnvironment.topologyAt t = .cluster (some ∘ halvedOwner) [lowerNode, upperNode] :=
    fun _ => rfl
  have hslots : ∀ d ∈ taggedWrites.entries, ∀ key, d.cmd.routingKey = some key →
      clusterSlot key = 12182 ∨ clusterSlot key = 5061 := by
    intro d hd key hk
    simp only [taggedWrites, List.mem_cons, List.not_mem_nil, or_false] at hd
    rcases hd with rfl | rfl | rfl <;> cases hk <;> decide +kernel
  refine (singleSlotTransactions_iff ht).mpr fun _ _ d hd d' hd' key key' hk hk' node hn hn' _ => ?_
  have howner : halvedOwner (clusterSlot key) = halvedOwner (clusterSlot key') :=
    (Option.some.inj hn).trans (Option.some.inj hn').symm
  change clusterSlot key = clusterSlot key'
  rcases hslots d hd key hk with h | h <;> rcases hslots d' hd' key' hk' with h' | h' <;>
    rw [h, h'] at howner ⊢ <;> exact absurd howner (by decide)

def twoWrites : Queue :=
  ⟨[⟨.set (utf8Bytes "foo") (.string "1") none none, 0⟩, ⟨.set (utf8Bytes "a") (.string "1") none none, 1⟩],
    by decide⟩

theorem twoWrites_span_slots :
    transactions atomicService clusterEnvironment twoWrites =
      [⟨⟨upperNode, some 12182⟩, ⟨twoWrites.entries, false⟩⟩] ∧
    ¬ SingleSlotTransactions atomicService clusterEnvironment twoWrites := by
  have hfoo : clusterSlot (utf8Bytes "foo") = 12182 := by decide +kernel
  have ha : clusterSlot (utf8Bytes "a") = 15495 := by decide +kernel
  have hp : prepare atomicService clusterEnvironment twoWrites =
      .ok [⟨⟨upperNode, some 12182⟩, ⟨twoWrites.entries, false⟩⟩] := by
    have hslot : ∀ i, BatchCommandData.slot clusterSlot
        ⟨.set (utf8Bytes "foo") (.string "1") none none, i⟩ = 12182 := fun _ => hfoo
    have hslot' : ∀ i, BatchCommandData.slot clusterSlot
        ⟨.set (utf8Bytes "a") (.string "1") none none, i⟩ = 15495 := fun _ => ha
    simp [prepare, twoWrites, groupEntries, clusterEnvironment, hslot, hslot']
    rfl
  have ht : transactions atomicService clusterEnvironment twoWrites =
      [⟨⟨upperNode, some 12182⟩, ⟨twoWrites.entries, false⟩⟩] := by
    rw [transactions, hp]
    rfl
  refine ⟨ht, fun h => ?_⟩
  have hsingle := h _ (ht ▸ List.mem_singleton.mpr rfl) ⟨.set (utf8Bytes "foo") (.string "1") none none, 0⟩
    (by simp [Group.commands, twoWrites]) ⟨.set (utf8Bytes "a") (.string "1") none none, 1⟩
    (by simp [Group.commands, twoWrites]) _ _ rfl rfl
  have hslots : clusterSlot (utf8Bytes "foo") = clusterSlot (utf8Bytes "a") := hsingle
  rw [hfoo, ha] at hslots
  exact absurd hslots (by decide)

end Redisson
