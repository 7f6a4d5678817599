import Redisson.BatchOptions
import Redisson.LoadScripts

/-! The first half of `execute_in_memory`: from the drained queue to the node groups
whose pipelines are about to be built. -/

namespace Redisson

/-- The settings of a `CommandBatchService` that its in-memory execution reads. -/
structure BatchService where
  options : BatchOptions
  batchRetryAttempts : Nat
  useScriptCache : Bool
  readMode : ReadMode

/-- A drained in-memory queue. `next_index.fetch_add` gives every command its own index. -/
structure Queue where
  entries : List BatchCommandData
  nodup : (entries.map BatchCommandData.index).Nodup

/-- Everything outside the service that one `execute_in_memory` meets: the routing table
over time, the iteration order of `node_map`, the answers of `fred` and the text `{:?}`
gives a value. `enqueueError` is the error of the first pipeline call of a group that
fails, `reply` the answer to the `n`-th call queued on a group's pipeline, so that
`try_all` has one result per call. -/
structure Environment (sha1 : String → String) where
  keyslot : Key → Slot
  topologyAt : Nat → Topology
  iterate : List Group → List Group
  iterate_perm : ∀ gs, (iterate gs).Perm gs
  caches : ScriptCaches sha1
  loadReply : Nat → Reply
  enqueueError : Server → Option Error
  reply : Server → Nat → Reply
  debug : Value → String

variable {sha1 : String → String}

def prepare (svc : BatchService) (env : Environment sha1) (q : Queue) :
    Except Error (List Group) :=
  match groupEntries env.topologyAt env.keyslot svc.batchRetryAttempts q.entries 0 [] with
  | .error e => .error e
  | .ok nodeMap =>
    (loadScripts svc.useScriptCache env.loadReply (env.iterate nodeMap) ⟨env.caches, []⟩).1

/-- The SCRIPT LOADs that are sent while the queue is prepared. -/
def BatchService.scriptLoads (svc : BatchService) (env : Environment sha1) (q : Queue) :
    List (Slot × String) :=
  match groupEntries env.topologyAt env.keyslot svc.batchRetryAttempts q.entries 0 [] with
  | .error _ => []
  | .ok nodeMap =>
    (loadScripts svc.useScriptCache env.loadReply (env.iterate nodeMap) ⟨env.caches, []⟩).2.loads

theorem prepare_ok {svc : BatchService} {env : Environment sha1} {q : Queue} {groups : List Group}
    (h : prepare svc env q = .ok groups) :
    ∃ nodeMap,
      groupEntries env.topologyAt env.keyslot svc.batchRetryAttempts q.entries 0 [] = .ok nodeMap ∧
      groups = (env.iterate nodeMap).map (Group.mapCommands (·.loaded svc.useScriptCache sha1)) := by
  cases hg : groupEntries env.topologyAt env.keyslot svc.batchRetryAttempts q.entries 0 [] with
  | error e => simp [prepare, hg] at h
  | ok nodeMap => exact ⟨nodeMap, rfl, loadScripts_ok (by simpa [prepare, hg] using h)⟩

theorem prepare_with_reply (svc : BatchService) (env : Environment sha1)
    (reply : Server → Nat → Reply) (q : Queue) :
    prepare svc { env with reply := reply } q = prepare svc env q :=
  rfl

theorem prepare_commands_perm {svc : BatchService} {env : Environment sha1} {q : Queue}
    {groups : List Group} (h : prepare svc env q = .ok groups) :
    (groups.flatMap Group.commands).Perm
      (q.entries.map (·.loaded svc.useScriptCache sha1)) := by
  obtain ⟨nodeMap, hg, rfl⟩ := prepare_ok h
  have hp : ((env.iterate nodeMap).flatMap Group.commands).Perm q.entries :=
    ((env.iterate_perm nodeMap).flatMap_right _).trans (groupEntries_perm hg)
  simpa only [List.flatMap_map, Group.mapCommands_commands, List.map_flatMap] using
    hp.map (·.loaded svc.useScriptCache sha1)

/-- Each group has its commands in the order of the queue. -/
theorem prepare_sublist {svc : BatchService} {env : Environment sha1} {q : Queue} {groups : List Group}
    (hp : prepare svc env q = .ok groups) {g : Group} (hg : g ∈ groups) :
    g.commands.Sublist (q.entries.map (·.loaded svc.useScriptCache sha1)) := by
  obtain ⟨nodeMap, hmap, rfl⟩ := prepare_ok hp
  obtain ⟨g', hg', rfl⟩ := List.mem_map.mp hg
  have hsub := groupEntries_sublist hmap g' ((env.iterate_perm nodeMap).mem_iff.mp hg')
  rw [Group.mapCommands_commands]
  exact hsub.map _

theorem prepare_indexes_perm {svc : BatchService} {env : Environment sha1} {q : Queue}
    {groups : List Group} (h : prepare svc env q = .ok groups) :
    ((groups.flatMap Group.commands).map BatchCommandData.index).Perm
      (q.entries.map BatchCommandData.index) := by
  have hp := (prepare_commands_perm h).map BatchCommandData.index
  simpa only [List.map_map, Function.comp_def, BatchCommandData.loaded_index] using hp

theorem prepare_indexes_nodup {svc : BatchService} {env : Environment sha1} {q : Queue}
    {groups : List Group} (h : prepare svc env q = .ok groups) :
    ((groups.flatMap Group.commands).map BatchCommandData.index).Nodup :=
  (prepare_indexes_perm h).nodup_iff.mpr q.nodup

end Redisson
