import Redisson.SyncedEvalRace

/-! The retry loop of `synced_eval` on a primary whose script cache need not agree with
`SCRIPT_SHA_CACHE`. The loop looks for NOSCRIPT in the error of `execute_async`, while the
batch turns an error that a node answers to a command into the value null. -/

namespace Redisson

open LabelledRuns

variable {sha1 : String → String}

def noscript : Error := ⟨"NOSCRIPT No matching script. Please use EVAL."⟩

/-- One attempt, and the node that answers its EVALSHA: the SHAs it has cached before the
attempt, whether the SCRIPT LOADs of the attempt reach it, and what it answers when it runs
the script and to WAIT or WAITAOF. -/
structure EvalAttempt (sha1 : String → String) where
  env : Environment sha1
  sched : Schedule
  known : Finset String
  receivesLoads : Bool
  exec : Reply
  wait : Reply

namespace EvalAttempt

variable (ev : SyncedEval) (a : EvalAttempt sha1)

/-- The node has the script when its EVALSHA arrives. -/
def Holds : Prop :=
  sha1 ev.script ∈ a.known ∨
    a.receivesLoads = true ∧ ev.script ∈ (ev.batch.scriptLoads a.env (ev.queue 0)).map Prod.snd

instance : Decidable (a.Holds ev) := inferInstanceAs (Decidable (_ ∨ _))

/-- An EVAL carries its script, an EVALSHA is run by a node that holds it. -/
def answer : Reply :=
  if ev.useScriptCache = false ∨ a.Holds ev then a.exec else .error noscript

def environment : Environment sha1 :=
  { a.env with reply := fun _ n => if n = 0 then a.answer ev else a.wait }

def run : BatchRun := execution ev (a.environment ev) a.sched 0

/-- `continue`, for an attempt with `script_loaded` still false. -/
def continues : Bool :=
  match (a.run ev).result with
  | .error e => e.contains "NOSCRIPT"
  | .ok _ => false

def returns : Reply :=
  match (a.run ev).result with
  | .error e => .error e
  | .ok r =>
    if ev.checkLockSyncedSlaves && r.syncedSlaves = 0 && 0 < ev.availableSlaves then
      .error SyncedEval.noneSynced
    else callerResult (a.run ev) 0

end EvalAttempt

/-- What one `synced_eval` returns, how often it calls `script_load_cluster`, and the
attempts it makes. -/
structure SyncedEvalRun (sha1 : String → String) where
  result : Reply
  reloads : Nat
  attempts : List (EvalAttempt sha1)

section Loop

variable (ev : SyncedEval) (first : EvalAttempt sha1) (reload : Except Error Unit)
  (second : EvalAttempt sha1)

def syncedEvalLoop : SyncedEvalRun sha1 :=
  if first.continues ev then
    match reload with
    | .error e => ⟨.error e, 1, [first]⟩
    | .ok () => ⟨second.returns ev, 1, [first, second]⟩
  else ⟨first.returns ev, 0, [first]⟩

/-- `synced_eval` returns a value only when the node of one of its attempts has run the
script and answered with it, and an EVALSHA answered with NOSCRIPT makes it load the script
on the cluster and try once more. -/
structure RecoversFromNoscript : Prop where
  executed : ∀ v, (syncedEvalLoop ev first reload second).result = .ok v →
    ∃ a ∈ (syncedEvalLoop ev first reload second).attempts,
      (a.run ev).evals = 1 ∧ a.answer ev = .ok v
  retried : (first.run ev).evals = 1 → ∀ e, first.answer ev = .error e → e.contains "NOSCRIPT" →
    (syncedEvalLoop ev first reload second).reloads = 1 ∧
      (reload = .ok () → (syncedEvalLoop ev first reload second).attempts = [first, second])

end Loop

section Attempts

namespace EvalAttempt

variable (ev : SyncedEval) (a : EvalAttempt sha1)

/-- What stops an attempt before its EVALSHA is sent: no node for the slot, a failed SCRIPT
LOAD, a refused call. -/
def obstacle : Option Error :=
  match prepare ev.batch a.env (ev.queue 0) with
  | .error e => some e
  | .ok groups => groups.findSome? fun g => a.env.enqueueError g.mse.primary

def FailsCheck : Prop :=
  ev.checkLockSyncedSlaves = true ∧ 0 < ev.availableSlaves ∧ extractSyncedSlaves (some a.wait) = 0

instance : Decidable (a.FailsCheck ev) := inferInstanceAs (Decidable (_ ∧ _ ∧ _))

variable {ev a}

@[simp] theorem environment_enqueueError : (a.environment ev).enqueueError = a.env.enqueueError :=
  rfl

theorem prepare_environment :
    prepare ev.batch (a.environment ev) (ev.queue 0) = prepare ev.batch a.env (ev.queue 0) :=
  prepare_with_reply _ _ _ _

theorem prepare_group {groups : List Group}
    (h : prepare ev.batch a.env (ev.queue 0) = .ok groups) :
    ∃ g : Group, groups = [g] ∧ g.indexes = [0] ∧
      a.run ev = runGroups ev.batch (a.environment ev) [g] a.sched := by
  have hne : (ev.queue 0).entries ≠ [] := by simp [SyncedEval.queue]
  obtain ⟨g, rfl, -⟩ := prepare_queue h
  have hindexes : g.indexes = [0] := by
    have hperm := prepare_indexes_perm h
    simpa [SyncedEval.queue, Group.indexes] using hperm
  have hp := (@prepare_environment _ ev a).trans h
  exact ⟨g, rfl, hindexes, executeInMemory_ok hne hp⟩

theorem run_obstacle {e : Error} (h : a.obstacle ev = some e) :
    (a.run ev).result = .error e ∧ (a.run ev).evals = 0 := by
  have hresult : (a.run ev).result = .error e := by
    cases hp : prepare ev.batch a.env (ev.queue 0) with
    | error e' =>
      obtain rfl : e' = e := by simpa [obstacle, hp] using h
      have hne : (ev.queue 0).entries ≠ [] := by simp [SyncedEval.queue]
      simp [run, execution, executeInMemory, hne, prepare_environment, hp]
    | ok groups =>
      obtain ⟨g, rfl, -, hrun⟩ := prepare_group hp
      have hq : (a.environment ev).enqueueError g.mse.primary = some e := by
        simpa [obstacle, hp] using h
      have horder : a.sched.order [g] = [g] := List.perm_singleton.mp (a.sched.order_perm [g])
      simp [hrun, runGroups, horder, Group.run, hq, collect, Except.map]
  refine ⟨hresult, ?_⟩
  rw [run, execution_evals, ← run, hresult]

/-- What the task of the one group tells its sender and the collector. -/
theorem groupRun_sent {g : Group} (hi : g.indexes = [0])
    (hq : (a.environment ev).enqueueError g.mse.primary = none) :
    (g.run ev.batch (a.environment ev)).sends = [(0, .ok (unwrapOrNull (a.answer ev)))] ∧
      ∃ r, (g.run ev.batch (a.environment ev)).result = .ok r ∧
        r.1 = if 0 < ev.availableSlaves then extractSyncedSlaves (some a.wait) else 0 := by
  have hlength : g.commands.length = 1 := by simpa using congrArg List.length hi
  constructor
  · rw [Group.run_plain hq ev.batch_skipResult ev.batch_isAtomic, hi, hlength]
    simp [environment]
  · obtain ⟨r, hr, hsynced⟩ := groupRun_synced hlength hq
    exact ⟨r, hr, by simpa [environment] using hsynced⟩

/-- An attempt that sends its EVALSHA always succeeds, and hands on a null for an error. -/
theorem run_sent (h : a.obstacle ev = none) :
    (a.run ev).evals = 1 ∧ callerResult (a.run ev) 0 = .ok (unwrapOrNull (a.answer ev)) ∧
      ∃ r, (a.run ev).result = .ok r ∧
        r.syncedSlaves = if 0 < ev.availableSlaves then extractSyncedSlaves (some a.wait) else 0 := by
  cases hp : prepare ev.batch a.env (ev.queue 0) with
  | error e => simp [obstacle, hp] at h
  | ok groups =>
    obtain ⟨g, rfl, hi, hrun⟩ := prepare_group hp
    have hq : (a.environment ev).enqueueError g.mse.primary = none := by
      simpa [obstacle, hp] using h
    have horder : a.sched.order [g] = [g] := List.perm_singleton.mp (a.sched.order_perm [g])
    obtain ⟨hcaller, r, hr, hsynced⟩ := groupRun_sent hi hq
    have hnotFailed : (g.run ev.batch (a.environment ev)).failed = false := by
      simp [TaskOutcome.failed, hr]
    have hresult : (a.run ev).result =
        .ok ⟨(r.2.mergeSort fun a b => a.1 ≤ b.1).map Prod.snd, r.1⟩ := by
      simp [hrun, runGroups, horder, collect, hr, Except.map]
    have hsends : (a.run ev).sends = [(0, .ok (unwrapOrNull (a.answer ev)))] := by
      have htake : ([g.run ev.batch (a.environment ev)]).take (2 + a.sched.late) =
          [g.run ev.batch (a.environment ev)] := List.take_of_length_le (by simp; omega)
      simp [hrun, runGroups, horder, settled, List.findIdx_cons, hnotFailed, htake, hcaller]
    refine ⟨?_, ?_, _, hresult, hsynced⟩
    · rw [run, execution_evals, ← run, hresult]
    · simp [callerResult, hsends]

theorem continues_iff : a.continues ev = true ↔
    ∃ e, a.obstacle ev = some e ∧ e.contains "NOSCRIPT" = true := by
  cases ho : a.obstacle ev with
  | some e => simp [continues, (run_obstacle ho).1]
  | none =>
    obtain ⟨-, -, r, hr, -⟩ := run_sent ho
    simp [continues, hr]

theorem returns_obstacle {e : Error} (h : a.obstacle ev = some e) : a.returns ev = .error e := by
  simp [returns, (run_obstacle h).1]

theorem returns_sent (h : a.obstacle ev = none) :
    a.returns ev = if a.FailsCheck ev then .error SyncedEval.noneSynced
      else .ok (unwrapOrNull (a.answer ev)) := by
  obtain ⟨-, hcaller, r, hr, hsynced⟩ := run_sent h
  have hcheck : (ev.checkLockSyncedSlaves && r.syncedSlaves = 0 && 0 < ev.availableSlaves) = true ↔
      a.FailsCheck ev := by
    by_cases hpos : 0 < ev.availableSlaves <;> simp [FailsCheck, hsynced, hpos]
  simp only [returns, hr, hcaller, hcheck]

/-- `load_scripts` asks its own cache: it sends the script of an attempt unless the cache
lists it for the primary. -/
theorem scriptLoads_eq {g : Group} (hc : ev.useScriptCache = true)
    (h : prepare ev.batch a.env (ev.queue 0) = .ok [g]) :
    (ev.batch.scriptLoads a.env (ev.queue 0)).map Prod.snd =
      if (a.env.caches.isCached g.mse.primary ev.script).1 then [] else [ev.script] := by
  obtain ⟨nodeMap, hn, hmap⟩ := prepare_ok h
  obtain ⟨g', hit, rfl⟩ : ∃ g', a.env.iterate nodeMap = [g'] ∧
      g = g'.mapCommands (·.loaded ev.useScriptCache sha1) := by
    obtain ⟨g', hit, hg⟩ := List.map_eq_singleton_iff.mp hmap.symm
    exact ⟨g', hit, hg.symm⟩
  have hcommands : g'.commands = [⟨.eval ev.script ev.keys ev.args, 0⟩] := by
    have hperm := ((a.env.iterate_perm nodeMap).flatMap_right Group.commands).trans
      (groupEntries_perm hn)
    simpa [hit, SyncedEval.queue] using hperm
  have hload : ev.batch.useScriptCache = true := hc
  cases hcached : (a.env.caches.isCached g'.mse.primary ev.script).1 with
  | true =>
    simp [BatchService.scriptLoads, hn, hit, loadScripts, hload, loadGroups, loadGroup, loadMissing,
      hcommands, scriptsToLoad, hcached]
  | false =>
    cases hr : a.env.loadReply 0 <;>
      simp [BatchService.scriptLoads, hn, hit, loadScripts, hload, loadGroups, loadGroup, loadMissing,
        hcommands, scriptsToLoad, hcached, sendLoads, hr]

/-- Where the cache lists a script that the node has lost, EVALSHA is answered with NOSCRIPT. -/
theorem answer_stale {g : Group} (hc : ev.useScriptCache = true)
    (h : prepare ev.batch a.env (ev.queue 0) = .ok [g])
    (hcached : (a.env.caches.isCached g.mse.primary ev.script).1 = true)
    (hlost : sha1 ev.script ∉ a.known) : a.answer ev = .error noscript := by
  have hloads := scriptLoads_eq hc h
  rw [if_pos hcached] at hloads
  have hholds : ¬ a.Holds ev := by simp [Holds, hloads, hlost]
  simp [answer, hc, hholds]

/-- What an attempt returns is a real answer, unless it hides an error of the node. -/
theorem returns_ok_iff : (∀ v, a.returns ev = .ok v → (a.run ev).evals = 1 ∧ a.answer ev = .ok v) ↔
    (a.obstacle ev = none → (∃ v, a.answer ev = .ok v) ∨ a.FailsCheck ev) := by
  cases ho : a.obstacle ev with
  | some e => simp [returns_obstacle ho]
  | none =>
    by_cases hc : a.FailsCheck ev
    · simp [returns_sent ho, hc]
    · cases hr : a.answer ev with
      | error e => simp [returns_sent ho, hc, hr, unwrapOrNull]
      | ok v => simp [returns_sent ho, hc, hr, unwrapOrNull, (run_sent ho).1]

end EvalAttempt

end Attempts

section Recovery

variable {ev : SyncedEval} {first second : EvalAttempt sha1} {reload : Except Error Unit}

/-- An attempt whose EVALSHA is sent is the only one: nothing that it comes to looks like a
missing script. -/
theorem syncedEvalLoop_sent (h : first.obstacle ev = none) :
    syncedEvalLoop ev first reload second = ⟨first.returns ev, 0, [first]⟩ := by
  have hc : first.continues ev = false := by
    rw [← Bool.not_eq_true, EvalAttempt.continues_iff, h]
    simp
  simp [syncedEvalLoop, hc]

theorem syncedEvalLoop_obstacle {e : Error} (h : first.obstacle ev = some e) :
    syncedEvalLoop ev first reload second =
      if e.contains "NOSCRIPT" then
        match reload with
        | .error e => ⟨.error e, 1, [first]⟩
        | .ok () => ⟨second.returns ev, 1, [first, second]⟩
      else ⟨.error e, 0, [first]⟩ := by
  have hc : first.continues ev = e.contains "NOSCRIPT" := by
    rw [Bool.eq_iff_iff, EvalAttempt.continues_iff, h]
    simp
  simp only [syncedEvalLoop, hc, EvalAttempt.returns_obstacle h]

theorem recovers_sent_iff (ho : first.obstacle ev = none) :
    RecoversFromNoscript ev first reload second ↔ (∃ v, first.answer ev = .ok v) ∨
      first.FailsCheck ev ∧ ∃ e, first.answer ev = .error e ∧ e.contains "NOSCRIPT" = false := by
  have hloop := @syncedEvalLoop_sent _ ev first second reload ho
  have hreturns := @EvalAttempt.returns_ok_iff _ ev first
  have hsent := (EvalAttempt.run_sent ho).1
  constructor
  · intro h
    have hok := h.executed
    have hretried := h.retried hsent
    simp only [hloop, List.mem_singleton, exists_eq_left] at hok hretried
    rcases hreturns.mp hok ho with hv | hc
    · exact .inl hv
    · cases hr : first.answer ev with
      | ok v => exact .inl ⟨v, rfl⟩
      | error e =>
        refine .inr ⟨hc, e, rfl, ?_⟩
        by_contra hn
        have hreloads := (hretried e hr (by simpa using hn)).1
        omega
  · intro h
    constructor
    · simp only [hloop, List.mem_singleton, exists_eq_left]
      exact hreturns.mpr fun _ => h.imp_right And.left
    · intro _ e he hn
      rcases h with ⟨v, hv⟩ | ⟨-, e', he', hn'⟩
      · cases he.symm.trans hv
      · obtain rfl : e = e' := Except.error.inj (he.symm.trans he')
        simp [hn] at hn'

theorem recovers_obstacle_iff {e : Error} (ho : first.obstacle ev = some e) :
    RecoversFromNoscript ev first reload second ↔
      (e.contains "NOSCRIPT" = true → reload = .ok () → second.obstacle ev = none →
        (∃ v, second.answer ev = .ok v) ∨ second.FailsCheck ev) := by
  have hloop := @syncedEvalLoop_obstacle _ ev first second reload e ho
  have hsent := (EvalAttempt.run_obstacle ho).2
  -- the EVALSHA of the first attempt was not sent, so nothing is asked of its answer
  have hretried : ∀ P : Prop, (first.run ev).evals = 1 → P := fun P h => by omega
  have hreturns := @EvalAttempt.returns_ok_iff _ ev second
  by_cases hn : e.contains "NOSCRIPT" = true
  · rw [if_pos hn] at hloop
    cases reload with
    | error e' => exact iff_of_true ⟨by simp [hloop], fun h => hretried _ h⟩ (by simp)
    | ok u =>
      have hexecuted : (∀ v, (syncedEvalLoop ev first (.ok u) second).result = .ok v →
          ∃ a ∈ (syncedEvalLoop ev first (.ok u) second).attempts,
            (a.run ev).evals = 1 ∧ a.answer ev = .ok v) ↔
          (∀ v, second.returns ev = .ok v → (second.run ev).evals = 1 ∧ second.answer ev = .ok v) := by
        simp [hloop, hsent]
      constructor
      · intro h _ _
        exact hreturns.mp (hexecuted.mp h.executed)
      · intro h
        exact ⟨hexecuted.mpr (hreturns.mpr (h hn rfl)), fun h => hretried _ h⟩
  · rw [if_neg hn] at hloop
    exact iff_of_true ⟨by simp [hloop], fun h => hretried _ h⟩ fun hn' => absurd hn' hn

/-- `synced_eval` recovers from a lost script exactly when there is none to recover from: no
EVALSHA that it sends is answered with an error, unless the check of the synced slaves fails
the call and there was no NOSCRIPT to be retried. -/
theorem recoversFromNoscript_iff : RecoversFromNoscript ev first reload second ↔
    (first.obstacle ev = none → (∃ v, first.answer ev = .ok v) ∨
      first.FailsCheck ev ∧ ∃ e, first.answer ev = .error e ∧ e.contains "NOSCRIPT" = false) ∧
    (∀ e, first.obstacle ev = some e → e.contains "NOSCRIPT" = true → reload = .ok () →
      second.obstacle ev = none → (∃ v, second.answer ev = .ok v) ∨ second.FailsCheck ev) := by
  cases ho : first.obstacle ev with
  | none =>
    rw [recovers_sent_iff ho]
    simp
  | some e =>
    rw [recovers_obstacle_iff ho]
    simp

/-! The loop as a run of the interleaved steps in which each attempt has its script queued
before the batch is executed. -/

def EvalAttempt.steps (ev : SyncedEval) (a : EvalAttempt sha1) : List (EvalEvent sha1) :=
  [.fetchIndex, .push, .compareExchange, .drain, .complete (a.environment ev) a.sched]

theorem run_steps {a : EvalAttempt sha1} {s : EvalState} (hb : s.batch = .new)
    (hm : s.caller = .executing) : ∃ s', run (evalStep ev) s (a.steps ev) =
      some (EvalState.afterExecute ev s' (a.run ev).result) ∧
      s'.scriptLoaded = s.scriptLoaded ∧ s'.batch.callers 0 = .resolved (callerResult (a.run ev) 0) := by
  obtain ⟨batch, caller, scriptLoaded, invalidated, sent⟩ := s
  subst hb hm
  exact ⟨_, rfl, rfl, rfl⟩

theorem run_continues {a : EvalAttempt sha1} (h : a.continues ev = true) :
    ∃ s, run (evalStep ev) .new (a.steps ev) = some s ∧ s.caller = .reloading ∧
      s.scriptLoaded = true := by
  obtain ⟨s, hrun, hl, -⟩ := @run_steps _ ev a .new rfl rfl
  cases hr : (a.run ev).result with
  | ok r => simp [EvalAttempt.continues, hr] at h
  | error e =>
    have hn : e.contains "NOSCRIPT" = true := by simpa [EvalAttempt.continues, hr] using h
    have hloaded : s.scriptLoaded = false := hl
    rw [hr] at hrun
    exact ⟨_, hrun, by simp [EvalState.afterExecute, hloaded, hn],
      by simp [EvalState.afterExecute, hloaded, hn]⟩

theorem evalStep_join {s : EvalState} {r : Reply} (hm : s.caller = .awaiting)
    (hr : s.batch.callers 0 = .resolved r) :
    @evalStep sha1 ev s .join = some { s with caller := .returned r } := by
  simp [evalStep, hm, hr]

theorem run_returns {a : EvalAttempt sha1} {s : EvalState} (hb : s.batch = .new)
    (hm : s.caller = .executing) (h : s.scriptLoaded = true ∨ a.continues ev = false) :
    ∃ (es : List (EvalEvent sha1)) (s' : EvalState), run (evalStep ev) s es = some s' ∧
      s'.caller = .returned (a.returns ev) := by
  obtain ⟨t, hrun, hl, hcaller⟩ := @run_steps _ ev a s hb hm
  cases hr : (a.run ev).result with
  | error e =>
    have hstop : (!t.scriptLoaded && e.contains "NOSCRIPT") = false := by
      rcases h with h | h
      · simp [hl, h]
      · have hn : e.contains "NOSCRIPT" = false := by simpa [EvalAttempt.continues, hr] using h
        simp [hn]
    rw [hr] at hrun
    exact ⟨_, _, hrun, by simp [EvalState.afterExecute, hstop, EvalAttempt.returns, hr]⟩
  | ok r =>
    rw [hr] at hrun
    by_cases hcheck : (ev.checkLockSyncedSlaves && r.syncedSlaves = 0 && 0 < ev.availableSlaves) = true
    · refine ⟨_, _, hrun, ?_⟩
      simp only [EvalState.afterExecute, EvalAttempt.returns, hr, if_pos hcheck]
    · have hreturns : a.returns ev = callerResult (a.run ev) 0 := by
        simp only [EvalAttempt.returns, hr, if_neg hcheck]
      have hawaits : (EvalState.afterExecute ev t (.ok r)).caller = .awaiting := by
        simp only [EvalState.afterExecute, if_neg hcheck]
      have hresolved : (EvalState.afterExecute ev t (.ok r)).batch.callers 0 =
          .resolved (callerResult (a.run ev) 0) := (t.afterExecute_ok ev r).1 ▸ hcaller
      rw [hreturns]
      refine ⟨a.steps ev ++ [.join], { EvalState.afterExecute ev t (.ok r) with
        caller := .returned (callerResult (a.run ev) 0) }, ?_, rfl⟩
      rw [run_append, hrun]
      simp only [Option.bind_some, run, evalStep_join hawaits hresolved]

/-- What the loop returns is returned by a run of the interleaved system. -/
theorem syncedEvalLoop_reachable (first second : EvalAttempt sha1) (reload : Except Error Unit) :
    ∃ (es : List (EvalEvent sha1)) (s : EvalState), run (evalStep ev) .new es = some s ∧
      s.caller = .returned (syncedEvalLoop ev first reload second).result := by
  cases hc : first.continues ev with
  | false =>
    have hloop : (syncedEvalLoop ev first reload second).result = first.returns ev := by
      simp [syncedEvalLoop, hc]
    rw [hloop]
    exact run_returns rfl rfl (.inr hc)
  | true =>
    obtain ⟨s, hrun, hm, hl⟩ := run_continues hc
    cases reload with
    | error e =>
      refine ⟨first.steps ev ++ [.reload (.error e)], { s with caller := .returned (.error e) }, ?_, ?_⟩
      · simp [run_append, hrun, run, evalStep, hm]
      · simp [syncedEvalLoop, hc]
    | ok u =>
      obtain ⟨es, s', hrun', hm'⟩ :=
        @run_returns _ ev second { s with batch := .new, caller := .executing } rfl rfl (.inl hl)
      refine ⟨first.steps ev ++ .reload (.ok ()) :: es, s', ?_, ?_⟩
      · simp [run_append, hrun, run, evalStep, hm, hrun']
      · simp [hm', syncedEvalLoop, hc]

end Recovery

/-! A script that `SCRIPT_SHA_CACHE` lists for the only node, which has lost it. -/

def staleCaches : ScriptCaches fun _ => "" :=
  ScriptCaches.cacheScripts .empty localServer ["return 1"]

def restartedNode : EvalAttempt fun _ => "" where
  env := { oneNodeEnvironment (.ok .null) with caches := staleCaches }
  sched := .first 0
  known := ∅
  receivesLoads := true
  exec := .ok (.integer 1)
  wait := .ok (.integer 1)

def cachedEval : SyncedEval := { lockEval with useScriptCache := true }

/-- EVALSHA is answered with NOSCRIPT, nothing is loaded, and the caller gets a null that no
script has returned. -/
theorem noscript_becomes_null :
    restartedNode.answer cachedEval = .error noscript ∧
    syncedEvalLoop cachedEval restartedNode (.ok ()) restartedNode =
      ⟨.ok .null, 0, [restartedNode]⟩ ∧
    ¬ RecoversFromNoscript cachedEval restartedNode (.ok ()) restartedNode := by
  have hanswer : restartedNode.answer cachedEval = .error noscript := rfl
  have hobstacle : restartedNode.obstacle cachedEval = none := rfl
  have hcheck : ¬ restartedNode.FailsCheck cachedEval := by decide
  have hloop : syncedEvalLoop cachedEval restartedNode (.ok ()) restartedNode =
      ⟨.ok .null, 0, [restartedNode]⟩ := by
    rw [syncedEvalLoop_sent hobstacle, EvalAttempt.returns_sent hobstacle, if_neg hcheck, hanswer]
    rfl
  refine ⟨hanswer, hloop, fun hh => ?_⟩
  obtain ⟨a, ha, -, hv⟩ := hh.executed .null (by rw [hloop])
  rw [hloop] at ha
  obtain rfl : a = restartedNode := List.mem_singleton.mp ha
  cases hanswer.symm.trans hv

end Redisson
