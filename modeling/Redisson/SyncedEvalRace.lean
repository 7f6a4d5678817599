import Redisson.BatchSystem
import Redisson.InMemoryBatch
import Mathlib.Algebra.GroupWithZero.Nat

/-! The end of `synced_eval`, where replicas or the AOF are waited for: the batch of one
EVAL, the spawned task that queues it, and the caller that executes the batch meanwhile. -/

namespace Redisson

open LabelledRuns

structure SyncedEval where
  script : String
  keys : List Key
  args : List Value
  useAof : Bool
  availableSlaves : Int
  slavesSyncTimeout : Nat
  checkLockSyncedSlaves : Bool
  retryAttempts : Nat
  useScriptCache : Bool
  readMode : ReadMode
  waits : availableSlaves ≠ 0 ∨ useAof = true

namespace SyncedEval

def batchOpts (ev : SyncedEval) : BatchOptions :=
  if ev.useAof then BatchOptions.defaults.syncAOF 1 ev.availableSlaves ev.slavesSyncTimeout
  else BatchOptions.defaults.sync ev.availableSlaves ev.slavesSyncTimeout

def batch (ev : SyncedEval) : BatchService :=
  ⟨ev.batchOpts, ev.retryAttempts, ev.useScriptCache, ev.readMode⟩

def queue (ev : SyncedEval) (index : Nat) : Queue :=
  ⟨[⟨.eval ev.script ev.keys ev.args, index⟩], by simp⟩

def noneSynced : Error :=
  ⟨"None of slaves were synced. " ++
    "Try to increase slavesSyncTimeout or set checkLockSyncedSlaves = false."⟩

end SyncedEval

/-- Where the caller of `synced_eval` stands: in `execute_async`, in `script_load_cluster`,
at `eval_handle.await`, or done. -/
inductive EvalCaller
  | executing
  | reloading
  | awaiting
  | returned (r : Reply)

/-- One `synced_eval`: the batch of the current attempt, in which the spawned task is
`async0` call 0 and the caller is terminal call 0, and how often the script was sent. -/
structure EvalState where
  batch : BatchState
  caller : EvalCaller
  scriptLoaded : Bool
  slaveInfoInvalidated : Bool
  sent : Nat

def EvalState.new : EvalState := ⟨.new, .executing, false, false, 0⟩

inductive EvalEvent (sha1 : String → String)
  | fetchIndex
  | push
  | compareExchange
  | drain
  | complete (env : Environment sha1) (sched : Schedule)
  | reload (r : Except Error Unit)
  | join

def Call.isEval : Call → Bool
  | .custom name _ _ => name = "EVAL" || name = "EVALSHA"
  | .method .. => false

def BatchRun.evals (run : BatchRun) : Nat :=
  (run.pipelines.map fun p => p.2.calls.countP Call.isEval).sum

section Steps

variable {sha1 : String → String} (ev : SyncedEval)

def EvalState.afterExecute (s : EvalState) : Except Error BatchResult → EvalState
  | .error e =>
    if !s.scriptLoaded && e.contains "NOSCRIPT" then
      { s with scriptLoaded := true, caller := .reloading }
    else { s with caller := .returned (.error e) }
  | .ok r =>
    let invalidated := s.slaveInfoInvalidated || r.syncedSlaves ≠ ev.availableSlaves
    if ev.checkLockSyncedSlaves && r.syncedSlaves = 0 && 0 < ev.availableSlaves then
      { s with slaveInfoInvalidated := invalidated, caller := .returned (.error SyncedEval.noneSynced) }
    else { s with slaveInfoInvalidated := invalidated, caller := .awaiting }

theorem EvalState.afterExecute_ok (s : EvalState) (r : BatchResult) :
    (s.afterExecute ev (.ok r)).batch = s.batch ∧ (s.afterExecute ev (.ok r)).sent = s.sent ∧
      ((s.afterExecute ev (.ok r)).caller = .awaiting ∨
        (s.afterExecute ev (.ok r)).caller = .returned (.error SyncedEval.noneSynced)) := by
  by_cases hcheck : (ev.checkLockSyncedSlaves && r.syncedSlaves = 0 && 0 < ev.availableSlaves) = true
  · simp only [afterExecute, if_pos hcheck]
    exact ⟨trivial, trivial, .inr trivial⟩
  · simp only [afterExecute, if_neg hcheck]
    exact ⟨trivial, trivial, .inl trivial⟩

def EvalState.inBatch (s : EvalState) (e : BatchEvent) : Option EvalState :=
  (batchStep .inMemory s.batch e).map fun b => { s with batch := b }

def execution (env : Environment sha1) (sched : Schedule) (index : Nat) : BatchRun :=
  executeInMemory ev.batch env (ev.queue index) sched

def evalStep (s : EvalState) : EvalEvent sha1 → Option EvalState
  | .fetchIndex => s.inBatch (.fetchIndex 0)
  | .push => s.inBatch (.push 0)
  | .compareExchange => s.inBatch (.compareExchange 0 .execute)
  | .drain => s.inBatch (.drain 0)
  | .complete env sched =>
    match s.caller, s.batch.terminals 0 with
    | .executing, .running [p] =>
      let run := execution ev env sched p.index
      some (EvalState.afterExecute ev
        { s with
          batch := (s.batch.setTerminal 0 (.returned [])).setCaller 0
            (.resolved (callerResult run p.index))
          sent := s.sent + run.evals } run.result)
    | .executing, .returned [] => some (s.afterExecute ev (.ok ⟨[], 0⟩))
    | _, _ => none
  | .reload r =>
    match s.caller, r with
    | .reloading, .ok () => some { s with batch := .new, caller := .executing }
    | .reloading, .error e => some { s with caller := .returned (.error e) }
    | _, _ => none
  | .join =>
    match s.caller, s.batch.callers 0 with
    | .awaiting, .resolved r => some { s with caller := .returned r }
    | _, _ => none

end Steps

section Execution

variable {sha1 : String → String} {ev : SyncedEval} {env : Environment sha1} {sched : Schedule}

theorem prepare_queue {i : Nat} {groups : List Group}
    (h : prepare ev.batch env (ev.queue i) = .ok groups) :
    ∃ g : Group, groups = [g] ∧ ∃ d : BatchCommandData, g.commands = [d] ∧
      (RedisCommand.executeOn d.cmd).isEval = true := by
  obtain ⟨nodeMap, hn, rfl⟩ := prepare_ok h
  cases hr : resolveEntry env.topologyAt ev.batch.batchRetryAttempts
      (BatchCommandData.slot env.keyslot ⟨.eval ev.script ev.keys ev.args, i⟩) 0 with
  | mk found now =>
    cases found with
    | error e => simp [SyncedEval.queue, groupEntries, hr] at hn
    | ok mse =>
      have hmap : nodeMap = [⟨mse, Entry.new.addCommand ⟨.eval ev.script ev.keys ev.args, i⟩⟩] := by
        simpa [SyncedEval.queue, groupEntries, hr, addToNode] using hn.symm
      have hit := List.perm_singleton.mp (hmap ▸ env.iterate_perm nodeMap)
      rw [hmap, hit]
      refine ⟨_, rfl, _, rfl, ?_⟩
      cases ev.batch.useScriptCache <;>
        simp [BatchCommandData.loaded, BatchCommandData.rewriteEval, RedisCommand.executeOn,
          Call.isEval]

theorem SyncedEval.batch_isAtomic (ev : SyncedEval) : ev.batch.options.isAtomic = false := by
  cases ha : ev.useAof <;>
    simp [SyncedEval.batch, SyncedEval.batchOpts, ha, BatchOptions.isAtomic, BatchOptions.syncAOF,
      BatchOptions.sync, BatchOptions.defaults]

theorem SyncedEval.batch_skipResult (ev : SyncedEval) : ev.batch.options.skipResult = false := by
  cases hu : ev.useAof <;>
    simp [SyncedEval.batch, SyncedEval.batchOpts, hu, BatchOptions.sync, BatchOptions.syncAOF,
      BatchOptions.defaults]

theorem SyncedEval.batch_waits_iff (ev : SyncedEval) :
    Group.waits ev.batch = true ↔ 0 < ev.availableSlaves := by
  cases hu : ev.useAof <;>
    simp [Group.waits, SyncedEval.batch, SyncedEval.batchOpts, hu, BatchOptions.sync,
      BatchOptions.syncAOF]

/-- The count that the task of the one group reports is the answer to its WAIT, if it sends one. -/
theorem groupRun_synced {g : Group} (hlength : g.commands.length = 1)
    (hq : env.enqueueError g.mse.primary = none) :
    ∃ r, (g.run ev.batch env).result = .ok r ∧
      r.1 = if 0 < ev.availableSlaves then extractSyncedSlaves (some (env.reply g.mse.primary 1))
        else 0 := by
  have hplain := ev.batch_isAtomic
  have hlast : Group.waits ev.batch = true →
      (g.tryAll ev.batch env).getLast? = some (env.reply g.mse.primary 1) := by
    intro hw
    simp [Group.tryAll, Group.pipeline_length, hw, hplain, hlength, List.range_succ]
  simp only [← ev.batch_waits_iff]
  cases hw : Group.waits ev.batch with
  | false => simp [Group.run, hq, Group.finish, hw, ev.batch_skipResult, hplain]
  | true => simp [Group.run, hq, Group.finish, hw, hlast hw, ev.batch_skipResult, hplain]

/-- An execution that succeeds counts the replicas that its WAIT has counted. -/
theorem execution_synced {i : Nat} {r : BatchResult} (h : (execution ev env sched i).result = .ok r) :
    ∃ g, prepare ev.batch env (ev.queue i) = .ok [g] ∧
      r.syncedSlaves = if 0 < ev.availableSlaves then
        extractSyncedSlaves (some (env.reply g.mse.primary 1)) else 0 := by
  have hne : (ev.queue i).entries ≠ [] := by simp [SyncedEval.queue]
  cases hp : prepare ev.batch env (ev.queue i) with
  | error e => simp [execution, executeInMemory, hne, hp] at h
  | ok groups =>
    obtain ⟨g, rfl, d, hd, -⟩ := prepare_queue hp
    have horder : sched.order [g] = [g] := List.perm_singleton.mp (sched.order_perm [g])
    rw [execution, executeInMemory_ok hne hp] at h
    refine ⟨g, rfl, ?_⟩
    cases hq : env.enqueueError g.mse.primary with
    | some e => simp [runGroups, horder, Group.run, hq, collect, Except.map] at h
    | none =>
      obtain ⟨t, ht, hsynced⟩ := @groupRun_synced _ ev env g (by simp [hd]) hq
      have hr : r.syncedSlaves = t.1 := by
        simp only [runGroups, horder, List.map_cons, List.map_nil, collect, ht, Except.map,
          Except.ok.injEq] at h
        simp [← h]
      rw [hr, hsynced]

theorem pipeline_evals {svc : BatchService} {g : Group} {d : BatchCommandData}
    (hd : g.commands = [d]) (he : (RedisCommand.executeOn d.cmd).isEval = true) :
    (g.pipeline svc).calls.countP Call.isEval = 1 := by
  have hopen : (g.opening svc).countP Call.isEval = 0 := by
    unfold Group.opening
    split <;> simp [Call.isEval]
  have hclose : (g.closing svc).countP Call.isEval = 0 := by
    unfold Group.closing makeWaitCmd
    cases svc.options.isAtomic <;> cases Group.waits svc <;> cases svc.options.syncAof <;>
      simp [Call.isEval]
  simp [Group.pipeline, List.countP_append, hopen, hclose, hd, he]

theorem execution_evals (ev : SyncedEval) (env : Environment sha1) (sched : Schedule) (i : Nat) :
    (execution ev env sched i).evals =
      match (execution ev env sched i).result with
      | .ok _ => 1
      | .error _ => 0 := by
  have hne : (ev.queue i).entries ≠ [] := by simp [SyncedEval.queue]
  cases hp : prepare ev.batch env (ev.queue i) with
  | error e => simp [execution, executeInMemory, hne, hp, BatchRun.evals]
  | ok groups =>
    obtain ⟨g, rfl, d, hd, he⟩ := prepare_queue hp
    have horder : sched.order [g] = [g] := List.perm_singleton.mp (sched.order_perm [g])
    rw [execution, executeInMemory_ok hne hp]
    cases hq : env.enqueueError g.mse.primary with
    | some e =>
      simp [runGroups, horder, hq, BatchRun.evals, Group.run, collect, Except.map]
    | none =>
      have hres : ∃ r, (g.run ev.batch env).result = .ok r := by
        cases hs : ev.batch.options.skipResult <;>
          simp [Group.run, hq, Group.finish, hs, ev.batch_isAtomic]
      obtain ⟨r, hr⟩ := hres
      simp [runGroups, horder, hq, BatchRun.evals, pipeline_evals hd he, collect, hr, Except.map]

end Execution

def Terminal.BeforeDrain : Terminal → Prop
  | .idle | .refused | .won .execute => True
  | _ => False

/-- The batch of an attempt that is still executing: the script not queued yet, queued, or
taken. -/
inductive Attempt (b : BatchState) : Prop
  | before (hc : b.callers 0 = .idle ∨ ∃ i, b.callers 0 = .indexed i) (hq : b.queue = [])
      (ht : (b.terminals 0).BeforeDrain)
  | queued {i : Nat} (hc : b.callers 0 = .waiting i) (hq : b.queue = [⟨0, i⟩])
      (ht : (b.terminals 0).BeforeDrain)
  | taken {i : Nat} (hc : b.callers 0 = .waiting i) (ht : b.terminals 0 = .running [⟨0, i⟩])

/-- How far a `synced_eval` has come that always found its script in the queue. -/
inductive Progress (s : EvalState) : Prop
  | executing (hm : s.caller = .executing) (hs : s.sent = 0) (hb : Attempt s.batch)
  | reloading (hm : s.caller = .reloading) (hs : s.sent = 0)
  | awaiting {r : Reply} (hm : s.caller = .awaiting) (hs : s.sent = 1)
      (hr : s.batch.callers 0 = .resolved r)
  | returned {r : Reply} (hm : s.caller = .returned r) (hs : s.sent = 1)

/-- `synced_eval` has not lost its script: `execute_async` takes it, `eval_handle` can be
awaited, and whatever is returned, the script has been sent exactly once. -/
structure SentOnce (s : EvalState) : Prop where
  taken : s.caller = .executing → (s.batch.terminals 0).Closed →
    ∃ i, s.batch.terminals 0 = .running [⟨0, i⟩]
  answered : s.caller = .awaiting → s.sent = 1 ∧ ∃ r, s.batch.callers 0 = .resolved r
  finished : ∀ r, s.caller = .returned r → s.sent = 1

section Race

variable {sha1 : String → String} (ev : SyncedEval)

/-- The queue is drained after the spawned task has pushed the script, and the execution
succeeds, or fails with NOSCRIPT in the first attempt, whose reload then succeeds. -/
def InTime (s : EvalState) : EvalEvent sha1 → Prop
  | .drain => ∃ i, s.batch.callers 0 = .waiting i
  | .complete env sched => ∀ p, s.batch.terminals 0 = .running [p] →
    match (execution ev env sched p.index).result with
    | .ok _ => True
    | .error e => s.scriptLoaded = false ∧ e.contains "NOSCRIPT" = true
  | .reload r => r = .ok ()
  | _ => True

variable {ev} {s s' : EvalState} {b b' : BatchState}

theorem Terminal.BeforeDrain.not_closed {t : Terminal} (h : t.BeforeDrain) : ¬ t.Closed := by
  cases t <;> simp_all [BeforeDrain, Closed]

theorem Progress.sentOnce (h : Progress s) : SentOnce s := by
  cases h with
  | executing hm hs hb =>
    refine ⟨fun _ hclosed => ?_, by simp [hm], by simp [hm]⟩
    cases hb with
    | before hc hq ht | queued hc hq ht => exact absurd hclosed ht.not_closed
    | taken hc ht => exact ⟨_, ht⟩
  | reloading hm hs => exact ⟨by simp [hm], by simp [hm], by simp [hm]⟩
  | awaiting hm hs hr => exact ⟨by simp [hm], fun _ => ⟨hs, _, hr⟩, by simp [hm]⟩
  | returned hm hs => exact ⟨by simp [hm], by simp [hm], fun _ _ => hs⟩

theorem Attempt.fetchIndex (h : Attempt b) (hb : batchStep .inMemory b (.fetchIndex 0) = some b') :
    Attempt b' := by
  cases BatchStep.of_step hb with
  | fetchIndex hi =>
    cases h with
    | before hc hq ht => exact .before (.inr ⟨b.nextIndex, by simp [BatchState.setCaller]⟩) hq ht
    | queued hc hq ht => simp [hi] at hc
    | taken hc ht => simp [hi] at hc

theorem Attempt.push (h : Attempt b) (hb : batchStep .inMemory b (.push 0) = some b') :
    Attempt b' := by
  cases BatchStep.of_step hb with
  | @push c i hk hi hl =>
    cases h with
    | before hc hq ht =>
      exact .queued (i := i) (by simp [BatchState.enqueue, BatchState.setCaller])
        (by simp [BatchState.enqueue, BatchState.setCaller, hq]) ht
    | queued hc hq ht => simp [hi] at hc
    | taken hc ht => simp [hi] at hc

theorem Attempt.compareExchange (h : Attempt b)
    (hb : batchStep .inMemory b (.compareExchange 0 .execute) = some b') : Attempt b' := by
  have key : ∀ y : Terminal, y.BeforeDrain → b.terminals 0 = .idle → b'.callers = b.callers →
      b'.queue = b.queue → b'.terminals 0 = y → Attempt b' := by
    intro y hy hi hcall hqueue hterm
    cases h with
    | before hc hq ht => exact .before (by rwa [hcall]) (by rw [hqueue, hq]) (by rwa [hterm])
    | queued hc hq ht => exact .queued (by rw [hcall, hc]) (by rw [hqueue, hq]) (by rwa [hterm])
    | taken hc ht => simp [hi] at ht
  cases BatchStep.of_step hb with
  | lose hi he =>
    exact key .refused trivial hi rfl rfl (by simp [BatchState.setTerminal])
  | win hi he =>
    exact key (.won .execute) trivial hi rfl rfl (by simp [BatchState.setTerminal])

theorem Attempt.drain (h : Attempt b) (hw : ∃ i, b.callers 0 = .waiting i)
    (hb : batchStep .inMemory b (.drain 0) = some b') : Attempt b' := by
  obtain ⟨i, hw⟩ := hw
  cases h with
  | before hc hq ht => rcases hc with hc | ⟨j, hc⟩ <;> simp [hc] at hw
  | @queued j hc hq ht =>
    cases BatchStep.of_step hb with
    | discard hi hl => simp [hi, Terminal.BeforeDrain] at ht
    | drainEmpty hi hl hq' => simp [hq] at hq'
    | drain hi hl hq' => exact .taken (i := j) hc (by simp [BatchState.setTerminal, hq])
  | taken hc ht =>
    cases BatchStep.of_step hb with
    | discard hi hl => simp [ht] at hi
    | drainEmpty hi hl hq => simp [ht] at hi
    | drain hi hl hq => simp [ht] at hi

theorem inBatch_some {e : BatchEvent} (h : s.inBatch e = some s') :
    ∃ b, batchStep .inMemory s.batch e = some b ∧ s' = { s with batch := b } := by
  obtain ⟨b, hb, rfl⟩ := Option.map_eq_some_iff.mp h
  exact ⟨b, hb, rfl⟩

theorem Progress.inBatch {e : BatchEvent} (h : Progress s) (hs : s.inBatch e = some s')
    (hattempt : ∀ b, Attempt s.batch → batchStep .inMemory s.batch e = some b → Attempt b) :
    Progress s' := by
  obtain ⟨b, hb, rfl⟩ := inBatch_some hs
  cases h with
  | executing hm hsent ha => exact .executing hm hsent (hattempt b ha hb)
  | reloading hm hsent => exact .reloading hm hsent
  | awaiting hm hsent hr =>
    obtain ⟨r', hr'⟩ := (BatchStep.of_step hb).resolved hr
    exact .awaiting hm hsent hr'
  | returned hm hsent => exact .returned hm hsent

theorem Progress.afterExecute_ok {r : Reply} {result : BatchResult} (hs : s.sent = 1)
    (hr : s.batch.callers 0 = .resolved r) : Progress (s.afterExecute ev (.ok result)) := by
  obtain ⟨hbatch, hsent, hm | hm⟩ := s.afterExecute_ok ev result
  · exact .awaiting hm (hsent.trans hs) (hbatch ▸ hr)
  · exact .returned hm (hsent.trans hs)

theorem Progress.complete {env : Environment sha1} {sched : Schedule} (h : Progress s)
    (hok : InTime ev s (.complete env sched)) (hs : evalStep ev s (.complete env sched) = some s') :
    Progress s' := by
  cases h with
  | executing hm hsent ha =>
    cases ha with
    | before hc hq ht | queued hc hq ht =>
      cases hx : s.batch.terminals 0 <;> simp_all [evalStep, Terminal.BeforeDrain]
    | @taken i hc ht =>
      have hevals := execution_evals ev env sched i
      have htime := hok ⟨0, i⟩ ht
      simp only [evalStep, hm, ht, Option.some.injEq] at hs
      subst hs
      cases hres : (execution ev env sched i).result with
      | ok r =>
        rw [hres] at hevals
        exact .afterExecute_ok (r := callerResult (execution ev env sched i) i)
          (by simp [hsent, hevals]) (by simp [BatchState.setCaller])
      | error e =>
        rw [hres] at hevals
        simp only [hres] at htime
        simp only [EvalState.afterExecute, htime.1, htime.2, Bool.not_false, Bool.and_self, if_true]
        exact .reloading rfl (by simp [hsent, hevals])
  | reloading hm hsent => simp [evalStep, hm] at hs
  | awaiting hm hsent hr => simp [evalStep, hm] at hs
  | returned hm hsent => simp [evalStep, hm] at hs

theorem Progress.step {e : EvalEvent sha1} (h : Progress s) (hok : InTime ev s e)
    (hs : evalStep ev s e = some s') : Progress s' := by
  cases e with
  | fetchIndex => exact h.inBatch hs fun b ha hb => ha.fetchIndex hb
  | push => exact h.inBatch hs fun b ha hb => ha.push hb
  | compareExchange => exact h.inBatch hs fun b ha hb => ha.compareExchange hb
  | drain => exact h.inBatch hs fun b ha hb => ha.drain hok hb
  | complete env sched => exact h.complete hok hs
  | reload r =>
    obtain rfl : r = .ok () := hok
    cases h with
    | reloading hm hsent =>
      simp only [evalStep, hm, Option.some.injEq] at hs
      subst hs
      exact .executing rfl hsent (.before (.inl rfl) rfl trivial)
    | executing hm | awaiting hm | returned hm => simp [evalStep, hm] at hs
  | join =>
    cases h with
    | awaiting hm hsent hr =>
      simp only [evalStep, hm, hr, Option.some.injEq] at hs
      subst hs
      exact .returned rfl hsent
    | executing hm | reloading hm | returned hm => simp [evalStep, hm] at hs

/-- A `synced_eval` that drains its batch only after the push never loses its script. -/
theorem sentOnce_of_inTime {es : List (EvalEvent sha1)}
    (h : GuardedRun (evalStep ev) (InTime ev) .new es s) : SentOnce s := by
  have hnew : Progress .new := .executing rfl rfl (.before (.inl rfl) rfl trivial)
  exact (h.invariant (fun _ _ _ hs hok hm => hs.step hok hm) hnew).sentOnce

end Race

/-! A script on a primary with one replica, on a node that answers every call with 1. -/

def lockEval : SyncedEval where
  script := "return 1"
  keys := [utf8Bytes "foo"]
  args := []
  useAof := false
  availableSlaves := 1
  slavesSyncTimeout := 1000
  checkLockSyncedSlaves := true
  retryAttempts := 4
  useScriptCache := false
  readMode := .master
  waits := .inl (by decide)

def pushFirst : List (EvalEvent fun _ => "") :=
  [.fetchIndex, .push, .compareExchange, .drain,
    .complete (oneNodeEnvironment (.ok (.integer 1))) (.first 0), .join]

theorem sentOnce_pushFirst : ∃ s, run (evalStep lockEval) .new pushFirst = some s ∧
    s.caller = .returned (.ok (.integer 1)) ∧ SentOnce s := by
  obtain ⟨s, hs, hm⟩ : ∃ s, GuardedRun (evalStep lockEval) (InTime lockEval) .new pushFirst s ∧
      s.caller = .returned (.ok (.integer 1)) := by
    refine ⟨_, ⟨trivial, _, rfl, trivial, _, rfl, trivial, _, rfl, ⟨0, rfl⟩, _, rfl, ?_, _, rfl,
      trivial, _, rfl, rfl⟩, rfl⟩
    rintro p hp
    obtain rfl : ⟨0, 0⟩ = p := by
      have hh : Terminal.running [⟨0, 0⟩] = Terminal.running [p] := hp
      simpa using hh
    exact trivial
  exact ⟨s, hs.run_eq, hm, sentOnce_of_inTime hs⟩

def drainFirst : List (EvalEvent fun _ => "") :=
  [.compareExchange, .drain, .complete (oneNodeEnvironment (.ok (.integer 1))) (.first 0)]

/-- The caller is faster than the spawned task: the batch is executed empty, the script is
never sent, and the replicas are blamed. Without the check it waits for good. -/
theorem script_lost_drainFirst :
    (∃ s, run (evalStep lockEval) .new drainFirst = some s ∧ s.sent = 0 ∧
      s.caller = .returned (.error SyncedEval.noneSynced) ∧ ¬ SentOnce s) ∧
    ∃ s, run (evalStep { lockEval with checkLockSyncedSlaves := false }) .new
        (drainFirst ++ [.fetchIndex, .push]) = some s ∧ s.sent = 0 ∧ s.caller = .awaiting ∧
      s.batch.callers 0 = .waiting 0 ∧ ¬ SentOnce s := by
  refine ⟨⟨_, rfl, rfl, rfl, fun hh => ?_⟩, ⟨_, rfl, rfl, rfl, rfl, fun hh => ?_⟩⟩
  · exact absurd (hh.finished _ rfl) (by decide)
  · exact absurd (hh.answered rfl).1 (by decide)

end Redisson
