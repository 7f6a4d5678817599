import Redisson.InMemoryBatch
import Redisson.OpenTransactions
import Redisson.RoutingAgreement

/-! What is sent to replicas. A batch decides for replicas by its commands or its mode alone;
the wire form of a command and the calls around it are decided elsewhere. -/

namespace Redisson

variable {sha1 : String → String}

/-- A read-only replica serves reads, runs scripts (and refuses the writes inside them), and
takes part in MULTI and EXEC. It refuses every call that Redis counts as a write, SORT among
them, and WAIT and WAITAOF. -/
def Call.acceptedByReplica : Call → Bool
  | .method name _ => name ∈ ["get", "exists", "ttl", "pttl", "hget", "hgetall", "hexists", "hlen",
      "smembers", "sismember", "scard", "zscore", "zcard", "eval", "evalsha"]
  | .custom name _ _ => name ∈ ["EVAL", "EVALSHA", "EVALSHA_RO", "SORT_RO", "MULTI", "EXEC"]

namespace RedisCommand

def isSortRo : RedisCommand → Bool
  | sortRo _ => true
  | _ => false

def replicaSafe (cmd : RedisCommand) : Bool :=
  cmd.isReadOnly && !cmd.isSortRo || cmd.scriptBody.isSome

/-- `execute_on` makes a write of SORT_RO, and of no other read. -/
theorem acceptedByReplica_executeOn (cmd : RedisCommand) :
    (executeOn cmd).acceptedByReplica = cmd.replicaSafe := by
  cases cmd <;> rfl

end RedisCommand

@[simp] theorem acceptedByReplica_multiCall (slot : Slot) :
    (multiCall slot).acceptedByReplica = true := by simp [multiCall, Call.acceptedByReplica]

@[simp] theorem acceptedByReplica_execCall (slot : Slot) :
    (execCall slot).acceptedByReplica = true := by simp [execCall, Call.acceptedByReplica]

theorem acceptedByReplica_makeWaitCmd (slot : Slot) (syncAof : Bool) (syncLocals syncSlaves timeout : Int) :
    (makeWaitCmd slot syncAof syncLocals syncSlaves timeout).acceptedByReplica = false := by
  cases syncAof <;> simp [makeWaitCmd, Call.acceptedByReplica]

theorem RedisCommand.replicaSafe_of_isReadOnly {cmd : RedisCommand} (h : cmd.isReadOnly = true) :
    cmd.replicaSafe = true ↔ cmd.isSortRo = false := by
  cases cmd <;> simp_all [replicaSafe, isReadOnly, isSortRo, scriptBody]

@[simp] theorem BatchCommandData.loaded_isReadOnly (useScriptCache : Bool) (d : BatchCommandData) :
    (d.loaded useScriptCache sha1).cmd.isReadOnly = d.cmd.isReadOnly := by
  unfold loaded rewriteEval
  split
  · split
    · next hd => simp only [hd, RedisCommand.isReadOnly]
    · rfl
  · rfl

/-- The call is sent after EXEC, if one is due. -/
def Ending.SendsWait : Ending → Prop
  | .execute none | .execute (some .wait) => True
  | _ => False

section Replicas

variable (svc : BatchService)

/-- The calls that a batch sends through `pool.replicas()` or on a replica pipeline. -/
def replicaCalls (env : Environment sha1) (q : Queue) (pool : PoolEnvironment) (ending : Ending)
    (cmds : List RedisCommand) : List Call :=
  match svc.options.executionMode with
  | .redisReadAtomic | .redisWriteAtomic =>
    if isRead svc then (batchCalls svc pool ending cmds).map Prod.snd else []
  | .inMemory | .inMemoryAtomic =>
    match prepare svc env q with
    | .error _ => []
    | .ok groups =>
      (groups.filter fun g => (env.enqueueError g.mse.primary).isNone && (g.pipeline svc).replica).flatMap
        fun g => (g.pipeline svc).calls

def OnlyReadsOnReplicas (env : Environment sha1) (q : Queue) (pool : PoolEnvironment) (ending : Ending)
    (cmds : List RedisCommand) : Prop :=
  ∀ call ∈ replicaCalls svc env q pool ending cmds, call.acceptedByReplica = true

end Replicas

section Groups

variable {svc : BatchService} {env : Environment sha1} {q : Queue} {groups : List Group} {g : Group}

theorem waitCalls_accepted_iff {slot : Slot} :
    (∀ call ∈ waitCalls svc slot, call.acceptedByReplica = true) ↔ svc.options.syncSlaves ≤ 0 := by
  by_cases hw : 0 < svc.options.syncSlaves
  · simp [waitCalls, Group.waits, hw, acceptedByReplica_makeWaitCmd]
  · have hle : svc.options.syncSlaves ≤ 0 := by omega
    simp [waitCalls, Group.waits, hw, hle]

/-- The flag of an entry says what its commands are, before and after their scripts are loaded. -/
theorem prepare_readOnly (hp : prepare svc env q = .ok groups) :
    ∀ g ∈ groups, g.entry.readOnly = g.commands.all fun d => d.cmd.isReadOnly := by
  obtain ⟨nodeMap, hn, rfl⟩ := prepare_ok hp
  have hmap : ∀ g ∈ nodeMap, g.entry.readOnly = g.commands.all fun d => d.cmd.isReadOnly := by
    refine @groupEntries_induction env.topologyAt env.keyslot svc.batchRetryAttempts
      (fun _ gs => ∀ g ∈ gs, g.entry.readOnly = g.commands.all fun d => d.cmd.isReadOnly)
      ?_ q.entries [] 0 [] nodeMap (by simp) hn
    intro _ gs d _ mse hgs _
    refine forall_addToNode hgs ?_ fun g _ hg _ => ?_
    · simp [Entry.addCommand, Entry.new, Group.commands]
    · simp [Entry.addCommand, Group.commands, hg]
  intro g hg
  obtain ⟨g', hg', rfl⟩ := List.mem_map.mp hg
  have hh := hmap g' ((env.iterate_perm nodeMap).mem_iff.mp hg')
  simpa [Group.mapCommands, Group.commands, Function.comp_def] using hh

theorem replica_iff (hp : prepare svc env q = .ok groups) (hg : g ∈ groups) :
    (g.pipeline svc).replica = true ↔ svc.options.isAtomic = false ∧
      (∀ d ∈ g.commands, d.cmd.isReadOnly = true) ∧ svc.readMode ≠ .master := by
  simp [Group.pipeline, prepare_readOnly hp g hg, and_assoc]

theorem pipeline_accepted_iff (ha : svc.options.isAtomic = false) :
    (∀ call ∈ (g.pipeline svc).calls, call.acceptedByReplica = true) ↔
      (∀ d ∈ g.commands, d.cmd.replicaSafe = true) ∧ svc.options.syncSlaves ≤ 0 := by
  have hclosing : g.closing svc = waitCalls svc g.mse.slotOrZero := by
    simp [Group.closing, ha, waitCalls]
  simp only [Group.pipeline, Group.opening, ha, Bool.false_eq_true, if_false, List.nil_append,
    List.forall_mem_append, hclosing, waitCalls_accepted_iff, List.forall_mem_map,
    RedisCommand.acceptedByReplica_executeOn]

theorem replicaCalls_inMemory_iff {pool : PoolEnvironment} {ending : Ending} {cmds : List RedisCommand}
    (hm : svc.options.executionMode = .inMemory ∨ svc.options.executionMode = .inMemoryAtomic) :
    OnlyReadsOnReplicas svc env q pool ending cmds ↔
      ∀ groups, prepare svc env q = .ok groups → ∀ g ∈ groups, env.enqueueError g.mse.primary = none →
        svc.options.isAtomic = false → (∀ d ∈ g.commands, d.cmd.isReadOnly = true) →
        svc.readMode ≠ .master →
        (∀ d ∈ g.commands, d.cmd.isSortRo = false) ∧ svc.options.syncSlaves ≤ 0 := by
  have hcalls : OnlyReadsOnReplicas svc env q pool ending cmds ↔
      ∀ groups, prepare svc env q = .ok groups → ∀ g ∈ groups, env.enqueueError g.mse.primary = none →
        (g.pipeline svc).replica = true → ∀ call ∈ (g.pipeline svc).calls, call.acceptedByReplica = true := by
    unfold OnlyReadsOnReplicas replicaCalls
    rcases hm with hm | hm <;> rw [hm] <;>
    · cases hp : prepare svc env q with
      | error e => simp
      | ok groups =>
        simp only [Except.ok.injEq, forall_eq', List.mem_flatMap, List.mem_filter, Bool.and_eq_true,
          Option.isNone_iff_eq_none]
        exact ⟨fun h g hg hs hr call hc => h call ⟨g, ⟨hg, hs, hr⟩, hc⟩,
          fun h call ⟨g, ⟨hg, hs, hr⟩, hc⟩ => h g hg hs hr call hc⟩
  rw [hcalls]
  refine forall₂_congr fun groups hp => forall₂_congr fun g hg => forall_congr' fun _ => ?_
  rw [replica_iff hp hg, and_imp, and_imp]
  refine forall_congr' fun ha => forall_congr' fun hr => forall_congr' fun _ => ?_
  rw [pipeline_accepted_iff ha]
  exact and_congr_left' (forall₂_congr fun d hd => RedisCommand.replicaSafe_of_isReadOnly (hr d hd))

end Groups

section Transactions

variable {svc : BatchService} {env : PoolEnvironment}

theorem queueCalls_accepted_iff {n : Nat} {slot : Option Slot} {cmds : List RedisCommand} :
    (∀ w ∈ queueCalls env n slot cmds, w.2.acceptedByReplica = true) ↔
      ∀ cmd ∈ sentCommands env n cmds, cmd.replicaSafe = true := by
  induction n, slot, cmds using queueing_induction env with
  | nil n slot => simp [queueCalls, sentCommands]
  | wait n slot cmd cmds hw ih => simpa [queueCalls, sentCommands, hw] using ih
  | opened n slot cmd cmds hw hm ha =>
    simp [queueCalls, sentCommands, hw, hm, ha, commandCall, RedisCommand.acceptedByReplica_executeOn]
  | commandRefused n slot cmd cmds hw hm ha ih =>
    simp [queueCalls, sentCommands, hw, hm, ha, commandCall,
      RedisCommand.acceptedByReplica_executeOn, ih, -Prod.forall]
  | multiRefused n slot cmd cmds hw hm ih =>
    simp [queueCalls, sentCommands, hw, hm, ih, -Prod.forall]

theorem Ending.calls_accepted_iff {slot : Slot} {ending : Ending} :
    (∀ w ∈ ending.calls svc slot, w.2.acceptedByReplica = true) ↔
      (ending.SendsWait → svc.options.syncSlaves ≤ 0) := by
  match ending with
  | .discard | .execute (some .lock) | .execute (some .exec) => simp [Ending.calls, Ending.SendsWait]
  | .execute none | .execute (some .wait) => simpa [Ending.calls, Ending.SendsWait] using @waitCalls_accepted_iff svc slot

theorem replicaCalls_redisBased_iff {inMemory : Environment sha1} {q : Queue} {ending : Ending}
    {cmds : List RedisCommand} (hm : svc.options.executionMode = .redisReadAtomic) :
    OnlyReadsOnReplicas svc inMemory q env ending cmds ↔
      (∀ cmd ∈ sentCommands env 0 cmds, cmd.replicaSafe = true) ∧
        ((opening env 0 none cmds).isSome = true → ending.SendsWait → svc.options.syncSlaves ≤ 0) := by
  have hcalls : replicaCalls svc inMemory q env ending cmds =
      (batchCalls svc env ending cmds).map Prod.snd := by simp [replicaCalls, hm, isRead]
  rw [OnlyReadsOnReplicas, hcalls, List.forall_mem_map, batchCalls, List.forall_mem_append,
    queueCalls_accepted_iff]
  cases ho : opening env 0 none cmds with
  | none => simp
  | some o => simp [Ending.calls_accepted_iff, -Prod.forall]

end Transactions

section AllModes

variable {svc : BatchService} {env : Environment sha1} {q : Queue} {pool : PoolEnvironment}
  {ending : Ending} {cmds : List RedisCommand}

/-- Replicas are sent only what they accept exactly when no group of reads that goes to one
has a SORT_RO or waits, and no REDIS_READ_ATOMIC batch sends a write or waits. -/
theorem onlyReadsOnReplicas_iff : OnlyReadsOnReplicas svc env q pool ending cmds ↔
    match svc.options.executionMode with
    | .inMemory =>
      ∀ groups, prepare svc env q = .ok groups → ∀ g ∈ groups, env.enqueueError g.mse.primary = none →
        (∀ d ∈ g.commands, d.cmd.isReadOnly = true) → svc.readMode ≠ .master →
        (∀ d ∈ g.commands, d.cmd.isSortRo = false) ∧ svc.options.syncSlaves ≤ 0
    | .redisReadAtomic =>
      (∀ cmd ∈ sentCommands pool 0 cmds, cmd.replicaSafe = true) ∧
        ((opening pool 0 none cmds).isSome = true → ending.SendsWait → svc.options.syncSlaves ≤ 0)
    | .inMemoryAtomic | .redisWriteAtomic => True := by
  cases hm : svc.options.executionMode with
  | inMemory =>
    rw [replicaCalls_inMemory_iff (.inl hm)]
    have ha : svc.options.isAtomic = false := by simp [BatchOptions.isAtomic, hm]
    simp only [ha, forall_const]
  | inMemoryAtomic =>
    rw [replicaCalls_inMemory_iff (.inr hm)]
    simp [BatchOptions.isAtomic, hm]
  | redisReadAtomic => exact replicaCalls_redisBased_iff hm
  | redisWriteAtomic => simp [OnlyReadsOnReplicas, replicaCalls, hm, isRead]

end AllModes

/-! Three batches that send a replica what it refuses: a SORT_RO, a GET that is waited for, and
a SET in REDIS_READ_ATOMIC mode. -/

def slaveReads (o : BatchOptions) : BatchService := ⟨o, 4, false, .slave⟩

def readOne (o : BatchOptions) (cmd : RedisCommand) : List Call :=
  replicaCalls (slaveReads o) (oneNodeEnvironment (.ok .null)) (single cmd) (idlePool 1 Nat.one_pos)
    (.execute none) [cmd]

def ReadsOne (o : BatchOptions) (cmd : RedisCommand) : Prop :=
  OnlyReadsOnReplicas (slaveReads o) (oneNodeEnvironment (.ok .null)) (single cmd)
    (idlePool 1 Nat.one_pos) (.execute none) [cmd]

theorem ReadsOne.accepted {o : BatchOptions} {cmd : RedisCommand} (h : ReadsOne o cmd) {call : Call}
    (hc : call ∈ readOne o cmd) : call.acceptedByReplica = true := h call hc

theorem replicas_sent_refused_calls :
    (Call.custom "SORT" .firstKey [.bytes (utf8Bytes "foo")] ∈
        readOne .defaults (.sortRo (utf8Bytes "foo")) ∧
      ¬ ReadsOne .defaults (.sortRo (utf8Bytes "foo"))) ∧
    (Call.custom "WAIT" (.custom 0) [.integer 1, .integer 1000] ∈
        readOne (BatchOptions.defaults.sync 1 1000) (.get (utf8Bytes "foo")) ∧
      ¬ ReadsOne (BatchOptions.defaults.sync 1 1000) (.get (utf8Bytes "foo"))) ∧
    (RedisCommand.executeOn setFoo ∈
        readOne { BatchOptions.defaults with executionMode := .redisReadAtomic } setFoo ∧
      ¬ ReadsOne { BatchOptions.defaults with executionMode := .redisReadAtomic } setFoo) := by
  have hsort : Call.custom "SORT" .firstKey [.bytes (utf8Bytes "foo")] ∈
      readOne .defaults (.sortRo (utf8Bytes "foo")) := List.mem_of_getElem? (i := 0) rfl
  have hwait : Call.custom "WAIT" (.custom 0) [.integer 1, .integer 1000] ∈
      readOne (BatchOptions.defaults.sync 1 1000) (.get (utf8Bytes "foo")) :=
    List.mem_of_getElem? (i := 1) rfl
  have hset : RedisCommand.executeOn setFoo ∈
      readOne { BatchOptions.defaults with executionMode := .redisReadAtomic } setFoo :=
    List.mem_of_getElem? (i := 1) rfl
  refine ⟨⟨hsort, fun h => ?_⟩, ⟨hwait, fun h => ?_⟩, hset, fun h => ?_⟩
  · exact absurd (h.accepted hsort) (by decide)
  · exact absurd (h.accepted hwait) (by decide)
  · exact absurd (h.accepted hset) (by decide)

end Redisson
