import Redisson.GroupTask
import Redisson.HashSlot

/-! The slot of a command is computed twice: from `routing_key` when the batch is grouped,
and by `fred` from the argument list of the call. Here both are compared over one
slot-to-node table. -/

namespace Redisson

def Topology.cluster (table : Slot → Option Server) (hosts : List Server) : Topology :=
  ⟨some table, hosts⟩

def Call.node (keyslot : Key → Slot) (table : Slot → Option Server) (c : Call) : Option Server :=
  (c.slot keyslot).bind table

section Agreement

variable (svc : BatchService) (keyslot : Key → Slot) (table : Slot → Option Server)

/-- In every group, the wire form of each command with a routing key goes to the owner of
that key's slot, which is the node of the group, as do MULTI, EXEC and WAIT. -/
def RoutingAgrees (groups : List Group) : Prop :=
  ∀ g ∈ groups,
    (∀ d ∈ g.commands, ∀ key, d.cmd.routingKey = some key →
      (RedisCommand.executeOn d.cmd).node keyslot table = table (keyslot key) ∧
      table (keyslot key) = some g.mse.primary) ∧
    ∀ c ∈ g.opening svc ++ g.closing svc, c.node keyslot table = some g.mse.primary

/-- The text of a script, or the SHA that replaces it, happens to hash to the node of the
script's first key. -/
def ScriptRoutesLikeKey (cmd : RedisCommand) : Prop :=
  ∀ key body, cmd.routingKey = some key → cmd.scriptBody = some body →
    table (keyslot (utf8Bytes body)) = table (keyslot key)

theorem executeOn_node_iff {cmd : RedisCommand} {key : Key} (hk : cmd.routingKey = some key) :
    (RedisCommand.executeOn cmd).node keyslot table = table (keyslot key) ↔
      ScriptRoutesLikeKey keyslot table cmd := by
  cases hb : cmd.scriptBody with
  | none =>
    have hs := @RedisCommand.executeOn_slot_of_key keyslot cmd hb
    simp [Call.node, hs, hk, ScriptRoutesLikeKey, hb]
  | some body =>
    have hs := @RedisCommand.executeOn_slot_of_script keyslot cmd body hb
    simp [Call.node, hs, hk, ScriptRoutesLikeKey, hb]

end Agreement

/-- What grouping guarantees of a node group under a fixed routing table. -/
structure Group.Homed (keyslot : Key → Slot) (table : Slot → Option Server) (g : Group) : Prop where
  slot : table g.mse.slotOrZero = some g.mse.primary
  commands : ∀ d ∈ g.commands, table (d.slot keyslot) = some g.mse.primary

section Grouping

variable {keyslot : Key → Slot} {table : Slot → Option Server} {hosts : List Server}

theorem getWriteEntry_cluster {slot : Slot} {mse : MasterSlaveEntry}
    (h : (Topology.cluster table hosts).getWriteEntry slot = some mse) :
    mse.slot = some slot ∧ table slot = some mse.primary := by
  obtain ⟨s, hs, rfl⟩ := Option.map_eq_some_iff.mp h
  exact ⟨rfl, hs⟩

theorem groupEntries_homed {topologyAt : Nat → Topology} {retryAttempts now : Nat}
    {ds : List BatchCommandData} {out : List Group}
    (ht : ∀ t, topologyAt t = .cluster table hosts)
    (h : groupEntries topologyAt keyslot retryAttempts ds now [] = .ok out) :
    ∀ g ∈ out, g.Homed keyslot table := by
  refine @groupEntries_induction topologyAt keyslot retryAttempts
    (fun _ gs => ∀ g ∈ gs, g.Homed keyslot table) ?_ ds [] now [] out (by simp) h
  intro _ gs d t mse hgs hmse
  obtain ⟨hslot, hnode⟩ := getWriteEntry_cluster (ht t ▸ hmse)
  refine forall_addToNode hgs ⟨?_, ?_⟩ fun g _ hg hp => ⟨hg.slot, ?_⟩
  · simpa [MasterSlaveEntry.slotOrZero, hslot] using hnode
  · simpa [Group.commands, Entry.addCommand, Entry.new] using hnode
  · intro d' hd'
    have hd'' : d' ∈ g.commands ∨ d' = d := by
      simpa [Group.commands, Entry.addCommand] using hd'
    rcases hd'' with hd'' | rfl
    · exact hg.commands d' hd''
    · exact hp ▸ hnode

theorem prepare_homed {sha1 : String → String} {svc : BatchService} {env : Environment sha1}
    {q : Queue} {groups : List Group} (ht : ∀ t, env.topologyAt t = .cluster table hosts)
    (hp : prepare svc env q = .ok groups) : ∀ g ∈ groups, g.Homed env.keyslot table := by
  obtain ⟨nodeMap, hn, rfl⟩ := prepare_ok hp
  intro g hg
  obtain ⟨g', hg', rfl⟩ := List.mem_map.mp hg
  have hh := groupEntries_homed ht hn g' ((env.iterate_perm nodeMap).mem_iff.mp hg')
  refine ⟨hh.slot, fun d hd => ?_⟩
  obtain ⟨d', hd', rfl⟩ := List.mem_map.mp hd
  simpa [BatchCommandData.slot] using hh.commands d' hd'

theorem Group.Homed.frame {svc : BatchService} {g : Group} (h : g.Homed keyslot table) :
    ∀ c ∈ g.opening svc ++ g.closing svc, c.node keyslot table = some g.mse.primary := by
  have hframe : ∀ c ∈ g.opening svc ++ g.closing svc, c.slot keyslot = some g.mse.slotOrZero := by
    unfold Group.opening Group.closing makeWaitCmd
    cases svc.options.isAtomic <;> cases Group.waits svc <;> cases svc.options.syncAof <;>
      simp [Call.slot]
  intro c hc
  simpa [Call.node, hframe c hc] using h.slot

/-- Over one routing table, the two slot computations agree on a batch exactly when every
script in it is routed like its first key. -/
theorem routingAgrees_iff {sha1 : String → String} {svc : BatchService} {env : Environment sha1}
    {q : Queue} {groups : List Group} (ht : ∀ t, env.topologyAt t = .cluster table hosts)
    (hp : prepare svc env q = .ok groups) :
    RoutingAgrees svc env.keyslot table groups ↔
      ∀ d ∈ q.entries, ScriptRoutesLikeKey env.keyslot table (d.loaded svc.useScriptCache sha1).cmd := by
  have hperm := prepare_commands_perm hp
  constructor
  · intro hh d hd key body hk hb
    have hm := hperm.mem_iff.mpr (List.mem_map_of_mem (f := (·.loaded svc.useScriptCache sha1)) hd)
    obtain ⟨g, hg, hdg⟩ := List.mem_flatMap.mp hm
    have hnode := ((hh g hg).1 _ hdg key hk).1
    exact (executeOn_node_iff env.keyslot table hk).mp hnode key body hk hb
  · intro hc g hg
    have hhome := prepare_homed ht hp g hg
    refine ⟨fun d hd key hk => ?_, hhome.frame⟩
    have hm := hperm.mem_iff.mp (List.mem_flatMap.mpr ⟨g, hg, hd⟩)
    obtain ⟨d', hd', rfl⟩ := List.mem_map.mp hm
    have hslot := hhome.commands _ hd
    simp only [BatchCommandData.slot, hk, Option.map_some, Option.getD_some] at hslot
    exact ⟨(executeOn_node_iff env.keyslot table hk).mpr (hc d' hd'), hslot⟩

end Grouping

/-! One command on the two-node cluster. -/

def clusterService : BatchService := ⟨BatchOptions.defaults, 4, false, .master⟩

def clusterEnvironment : Environment fun _ => "" where
  keyslot := clusterSlot
  topologyAt _ := .cluster (some ∘ halvedOwner) [lowerNode, upperNode]
  iterate gs := gs
  iterate_perm gs := .refl gs
  caches := .empty
  loadReply _ := .ok .null
  enqueueError _ := none
  reply _ _ := .ok .null
  debug _ := ""

def single (cmd : RedisCommand) : Queue := ⟨[⟨cmd, 0⟩], by simp⟩

theorem prepare_single {cmd : RedisCommand} {key : Key} (hk : cmd.routingKey = some key)
    (hs : clusterSlot key = 12182) : prepare clusterService clusterEnvironment (single cmd) =
      .ok [⟨⟨upperNode, some 12182⟩, ⟨[⟨cmd, 0⟩], cmd.isReadOnly⟩⟩] := by
  have hslot : BatchCommandData.slot clusterSlot ⟨cmd, 0⟩ = 12182 := by
    simp [BatchCommandData.slot, hk, hs]
  simp [prepare, single, groupEntries, clusterEnvironment, hslot]
  rfl

/-- A read beside a script that hashes to a slot of the same node. -/
def readAndScript : Queue :=
  ⟨[⟨.get (utf8Bytes "foo"), 0⟩, ⟨.eval "return 2" [utf8Bytes "foo"] [], 1⟩], by decide⟩

theorem prepare_readAndScript : prepare clusterService clusterEnvironment readAndScript =
    .ok [⟨⟨upperNode, some 12182⟩, ⟨readAndScript.entries, false⟩⟩] := by
  have hfoo : clusterSlot (utf8Bytes "foo") = 12182 := by decide +kernel
  have hget : BatchCommandData.slot clusterSlot ⟨.get (utf8Bytes "foo"), 0⟩ = 12182 := hfoo
  have heval : BatchCommandData.slot clusterSlot
    ⟨.eval "return 2" [utf8Bytes "foo"] [], 1⟩ = 12182 := hfoo
  simp [prepare, readAndScript, groupEntries, clusterEnvironment, hget, heval]
  rfl

theorem routingAgrees_readAndScript : RoutingAgrees clusterService clusterSlot (some ∘ halvedOwner)
    [⟨⟨upperNode, some 12182⟩, ⟨readAndScript.entries, false⟩⟩] := by
  have ht : ∀ t, clusterEnvironment.topologyAt t = .cluster (some ∘ halvedOwner) [lowerNode, upperNode] :=
    fun _ => rfl
  refine (routingAgrees_iff ht prepare_readAndScript).mpr ?_
  intro d hd key body hk hb
  simp only [readAndScript, List.mem_cons, List.not_mem_nil, or_false] at hd
  rcases hd with rfl | rfl
  · cases hb
  · cases hk
    cases hb
    decide +kernel

/-- A script on a key of the upper node is sent to the lower one. -/
theorem eval_routed_by_script :
    prepare clusterService clusterEnvironment
        (single (.eval "return 1" [utf8Bytes "foo"] [])) =
      .ok [⟨⟨upperNode, some 12182⟩, ⟨[⟨.eval "return 1" [utf8Bytes "foo"] [], 0⟩], false⟩⟩] ∧
    (RedisCommand.executeOn (.eval "return 1" [utf8Bytes "foo"] [])).node clusterSlot (some ∘ halvedOwner) =
      some lowerNode ∧
    ¬ RoutingAgrees clusterService clusterSlot (some ∘ halvedOwner)
      [⟨⟨upperNode, some 12182⟩, ⟨[⟨.eval "return 1" [utf8Bytes "foo"] [], 0⟩], false⟩⟩] := by
  have hnode : (RedisCommand.executeOn (.eval "return 1" [utf8Bytes "foo"] [])).node clusterSlot
      (some ∘ halvedOwner) = some lowerNode := by decide +kernel
  refine ⟨prepare_single rfl (by decide +kernel), hnode, fun hh => ?_⟩
  obtain ⟨hagree, hhome⟩ :=
    (hh _ (List.mem_singleton.mpr rfl)).1 _ (List.mem_singleton.mpr rfl) _ rfl
  rw [hnode, hhome] at hagree
  exact absurd hagree (by decide)

end Redisson
