import Redisson.SyncedEvalRace

/-! What the answer of a `synced_eval` says about its script, in whatever order the caller and
the spawned task take their steps. -/

namespace Redisson

open LabelledRuns

/-- The batch of one attempt under its single `async0` call and its single `execute_async`. -/
structure OneCall (b : BatchState) : Prop where
  index : b.callers 0 = .idle → b.nextIndex = 0
  caller : b.callers 0 = .idle ∨ b.callers 0 = .indexed 0 ∨ b.callers 0 = .waiting 0
  queue : b.queue = [] ∨ b.callers 0 = .waiting 0 ∧ b.queue = [⟨0, 0⟩]
  terminal : (b.terminals 0).BeforeDrain ∨ b.terminals 0 = .running [⟨0, 0⟩] ∨
    b.terminals 0 = .returned []

namespace OneCall

variable {b b' : BatchState}

theorem new : OneCall .new :=
  ⟨fun _ => rfl, .inl rfl, .inl rfl, .inl trivial⟩

theorem fetchIndex (h : OneCall b) (hb : batchStep .inMemory b (.fetchIndex 0) = some b') :
    OneCall b' := by
  cases BatchStep.of_step hb with
  | fetchIndex hi =>
    refine ⟨?_, ?_, ?_, h.terminal⟩
    · simp [BatchState.setCaller]
    · simp [BatchState.setCaller, h.index hi]
    · rcases h.queue with hq | ⟨hc, -⟩
      · exact .inl hq
      · simp [hi] at hc

theorem push (h : OneCall b) (hb : batchStep .inMemory b (.push 0) = some b') : OneCall b' := by
  cases BatchStep.of_step hb with
  | @push c i hk hi hl =>
    obtain rfl : i = 0 := by
      rcases h.caller with hc | hc | hc <;> simp [hi] at hc
      exact hc
    refine ⟨?_, ?_, ?_, h.terminal⟩
    · simp [BatchState.enqueue, BatchState.setCaller]
    · simp [BatchState.enqueue, BatchState.setCaller]
    · rcases h.queue with hq | ⟨hc, -⟩
      · exact .inr (by simp [BatchState.enqueue, BatchState.setCaller, hq])
      · simp [hi] at hc

theorem compareExchange (h : OneCall b)
    (hb : batchStep .inMemory b (.compareExchange 0 .execute) = some b') : OneCall b' := by
  cases BatchStep.of_step hb with
  | lose hi he =>
    exact ⟨h.index, h.caller, h.queue,
      .inl (by simp [BatchState.setTerminal, Terminal.BeforeDrain])⟩
  | win hi he =>
    exact ⟨h.index, h.caller, h.queue,
      .inl (by simp [BatchState.setTerminal, Terminal.BeforeDrain])⟩

theorem drain (h : OneCall b) (hb : batchStep .inMemory b (.drain 0) = some b') : OneCall b' := by
  cases BatchStep.of_step hb with
  | discard hi hl => rcases h.terminal with ht | ht | ht <;> simp [hi, Terminal.BeforeDrain] at ht
  | drainEmpty hi hl hq =>
    exact ⟨h.index, h.caller, h.queue, .inr (.inr (by simp [BatchState.setTerminal]))⟩
  | drain hi hl hq =>
    rcases h.queue with hq' | ⟨-, hq'⟩
    · exact absurd hq' hq
    · exact ⟨h.index, h.caller, .inl rfl, .inr (.inl (by simp [BatchState.setTerminal, hq']))⟩

theorem not_resolved (h : OneCall b) (r : Reply) : b.callers 0 ≠ .resolved r := by
  rcases h.caller with hc | hc | hc <;> simp [hc]

end OneCall

section Execution

variable {sha1 : String → String} (ev : SyncedEval) (env : Environment sha1)

/-- The primary has answered the script with `v`, or with an error where `v` is null, and WAIT or
WAITAOF with some replica if that is checked. -/
structure Acknowledged (v : Value) (g : Group) : Prop where
  prepared : prepare ev.batch env (ev.queue 0) = .ok [g]
  sent : env.enqueueError g.mse.primary = none
  answered : env.reply g.mse.primary 0 = .ok v ∨
    v = .null ∧ ∃ e, env.reply g.mse.primary 0 = .error e
  synced : ev.checkLockSyncedSlaves = true → 0 < ev.availableSlaves →
    extractSyncedSlaves (some (env.reply g.mse.primary 1)) ≠ 0

variable {ev env} {sched : Schedule}

theorem reply_or_null (r : Reply) :
    r = .ok (unwrapOrNull r) ∨ unwrapOrNull r = .null ∧ ∃ e, r = .error e := by
  cases r with
  | ok v => exact .inl rfl
  | error e => exact .inr ⟨rfl, e, rfl⟩

/-- The one caller of a batch that was executed has the answer to its command. -/
theorem execution_value {r : BatchResult} (h : (execution ev env sched 0).result = .ok r) :
    ∃ g, prepare ev.batch env (ev.queue 0) = .ok [g] ∧ env.enqueueError g.mse.primary = none ∧
      callerResult (execution ev env sched 0) 0 =
        .ok (unwrapOrNull (env.reply g.mse.primary 0)) := by
  have hne : (ev.queue 0).entries ≠ [] := by simp [SyncedEval.queue]
  obtain ⟨g, hp, -⟩ := execution_synced h
  obtain ⟨g', hg', d, hd, -⟩ := prepare_queue hp
  obtain rfl : g = g' := by simpa using hg'
  have horder : sched.order [g] = [g] := List.perm_singleton.mp (sched.order_perm [g])
  have hindexes : g.indexes = [0] := by
    have hperm := prepare_indexes_perm hp
    simpa [SyncedEval.queue, Group.indexes] using hperm
  rw [execution, executeInMemory_ok hne hp] at h ⊢
  cases hq : env.enqueueError g.mse.primary with
  | some e => simp [runGroups, horder, Group.run, hq, collect, Except.map] at h
  | none =>
    have hsends := Group.run_plain hq ev.batch_skipResult ev.batch_isAtomic
    have hsettled : settled sched.late [Group.run ev.batch env g] = [Group.run ev.batch env g] :=
      List.take_of_length_le (by simp only [List.length_singleton]; omega)
    refine ⟨g, hp, hq, ?_⟩
    simp [callerResult, runGroups, horder, hsettled, hsends, hindexes, hd]

end Execution

section Stages

variable {sha1 : String → String} (ev : SyncedEval)

/-- The value is the answer of an execution among those that `Seen` says have completed. -/
def AcknowledgedIn (Seen : EvalEvent sha1 → Prop) (v : Value) : Prop :=
  ∃ env sched, Seen (.complete env sched) ∧ ∃ g, Acknowledged ev env v g

/-- Where a `synced_eval` can stand, and whether it has sent its script. -/
inductive EvalStage (Seen : EvalEvent sha1 → Prop) (s : EvalState) : Prop
  | executing (hm : s.caller = .executing) (hs : s.sent = 0) (hb : OneCall s.batch)
  | reloading (hm : s.caller = .reloading) (hs : s.sent = 0)
  | lost (hm : s.caller = .awaiting) (hs : s.sent = 0) (hb : OneCall s.batch)
      (ht : s.batch.terminals 0 = .returned [])
  | answered {v : Value} (hm : s.caller = .awaiting) (hs : s.sent = 1)
      (ht : s.batch.terminals 0 = .returned []) (hr : s.batch.callers 0 = .resolved (.ok v))
      (hv : AcknowledgedIn ev Seen v)
  | failed {e : Error} (hm : s.caller = .returned (.error e)) (hs : s.sent ≤ 1)
      (he : e ≠ SyncedEval.noneSynced → s.sent = 0)
  | returned {v : Value} (hm : s.caller = .returned (.ok v)) (hs : s.sent = 1)
      (hv : AcknowledgedIn ev Seen v)

variable {ev} {Seen : EvalEvent sha1 → Prop} {s s' : EvalState} {b b' : BatchState}

theorem inBatch_returned {e : BatchEvent} (ht : b.terminals 0 = .returned [])
    (he : e = .fetchIndex 0 ∨ e = .push 0 ∨ e = .compareExchange 0 .execute ∨ e = .drain 0)
    (hb : batchStep .inMemory b e = some b') :
    b'.terminals 0 = .returned [] ∧
      ∀ r, b.callers 0 = .resolved r → b'.callers 0 = .resolved r := by
  rcases he with rfl | rfl | rfl | rfl
  · cases BatchStep.of_step hb with
    | fetchIndex hc => exact ⟨ht, fun r hr => by simp [hc] at hr⟩
  · cases BatchStep.of_step hb with
    | push hk hc hl => exact ⟨ht, fun r hr => by simp [hc] at hr⟩
  · cases BatchStep.of_step hb with
    | lose hi he => simp [ht] at hi
    | win hi he => simp [ht] at hi
  · cases BatchStep.of_step hb with
    | discard hi hl => simp [ht] at hi
    | drainEmpty hi hl hq => simp [ht] at hi
    | drain hi hl hq => simp [ht] at hi

theorem EvalStage.inBatch {e : BatchEvent} (h : EvalStage ev Seen s)
    (he : e = .fetchIndex 0 ∨ e = .push 0 ∨ e = .compareExchange 0 .execute ∨ e = .drain 0)
    (hone : ∀ b, OneCall s.batch → batchStep .inMemory s.batch e = some b → OneCall b)
    (hs : s.inBatch e = some s') : EvalStage ev Seen s' := by
  obtain ⟨b, hb, rfl⟩ := inBatch_some hs
  cases h with
  | executing hm hsent ho => exact .executing hm hsent (hone b ho hb)
  | reloading hm hsent => exact .reloading hm hsent
  | lost hm hsent ho ht => exact .lost hm hsent (hone b ho hb) (inBatch_returned ht he hb).1
  | answered hm hsent ht hr hv =>
    obtain ⟨ht', hr'⟩ := inBatch_returned ht he hb
    exact .answered hm hsent ht' (hr' _ hr) hv
  | failed hm hsent he' => exact .failed hm hsent he'
  | returned hm hsent hv => exact .returned hm hsent hv

/-- A successful execution leaves the answer of the primary to the caller, unless the check
of the replicas fails. -/
theorem EvalStage.of_execution {env : Environment sha1} {sched : Schedule} {r : BatchResult}
    (hseen : Seen (.complete env sched)) (hr : (execution ev env sched 0).result = .ok r)
    (hsent : s.sent = 1) (ht : s.batch.terminals 0 = .returned [])
    (hc : s.batch.callers 0 = .resolved (callerResult (execution ev env sched 0) 0)) :
    EvalStage ev Seen (s.afterExecute ev (.ok r)) := by
  by_cases hcheck : (ev.checkLockSyncedSlaves && r.syncedSlaves = 0 && 0 < ev.availableSlaves) = true
  · simp only [EvalState.afterExecute, if_pos hcheck]
    exact .failed rfl hsent.le fun hne => absurd rfl hne
  · obtain ⟨g, hp, hq, hval⟩ := execution_value hr
    obtain ⟨g', hp', hsynced⟩ := execution_synced hr
    obtain rfl : g = g' := by simpa using hp.symm.trans hp'
    simp only [EvalState.afterExecute, if_neg hcheck]
    refine .answered rfl hsent ht (hc.trans (congrArg _ hval)) ⟨env, sched, hseen, g, ?_⟩
    refine ⟨hp, hq, reply_or_null _, fun hchecked havail hzero => hcheck ?_⟩
    simp [hchecked, havail, hsynced, hzero]

theorem EvalStage.of_empty (hsent : s.sent = 0) (ho : OneCall s.batch)
    (ht : s.batch.terminals 0 = .returned []) :
    EvalStage ev Seen (s.afterExecute ev (.ok ⟨[], 0⟩)) := by
  obtain ⟨hbatch, hsent', hm | hm⟩ := s.afterExecute_ok ev ⟨[], 0⟩
  · exact .lost hm (hsent'.trans hsent) (hbatch ▸ ho) (hbatch ▸ ht)
  · exact .failed hm (by omega) fun _ => hsent'.trans hsent

theorem EvalStage.of_failure {e : Error} (hsent : s.sent = 0) :
    EvalStage ev Seen (s.afterExecute ev (.error e)) := by
  by_cases hn : (!s.scriptLoaded && e.contains "NOSCRIPT") = true
  · simp only [EvalState.afterExecute, if_pos hn]
    exact .reloading rfl hsent
  · simp only [EvalState.afterExecute, if_neg hn]
    exact .failed rfl (by simp [hsent]) fun _ => hsent

theorem EvalStage.complete {env : Environment sha1} {sched : Schedule} (h : EvalStage ev Seen s)
    (hseen : Seen (.complete env sched)) (hs : evalStep ev s (.complete env sched) = some s') :
    EvalStage ev Seen s' := by
  cases h with
  | executing hm hsent ho =>
    rcases ho.terminal with ht | ht | ht
    · cases hx : s.batch.terminals 0 <;> simp_all [evalStep, Terminal.BeforeDrain]
    · have hevals := execution_evals ev env sched 0
      simp only [evalStep, hm, ht, Option.some.injEq] at hs
      subst hs
      cases hres : (execution ev env sched 0).result with
      | ok r =>
        rw [hres] at hevals
        exact .of_execution hseen hres (by simp [hsent, hevals])
          (by simp [BatchState.setCaller, BatchState.setTerminal]) (by simp [BatchState.setCaller])
      | error e =>
        rw [hres] at hevals
        exact .of_failure (by simp [hsent, hevals])
    · simp only [evalStep, hm, ht, Option.some.injEq] at hs
      subst hs
      exact .of_empty hsent ho ht
  | reloading hm | lost hm | answered hm | failed hm | returned hm => simp [evalStep, hm] at hs

theorem EvalStage.reload {r : Except Error Unit} (h : EvalStage ev Seen s)
    (hs : evalStep ev s (.reload r : EvalEvent sha1) = some s') : EvalStage ev Seen s' := by
  cases h with
  | reloading hm hsent =>
    cases r with
    | ok u =>
      simp only [evalStep, hm, Option.some.injEq] at hs
      subst hs
      exact .executing rfl hsent .new
    | error e =>
      simp only [evalStep, hm, Option.some.injEq] at hs
      subst hs
      exact .failed rfl (by simp [hsent]) fun _ => hsent
  | executing hm | lost hm | answered hm | failed hm | returned hm => simp [evalStep, hm] at hs

theorem EvalStage.join (h : EvalStage ev Seen s)
    (hs : evalStep ev s (.join : EvalEvent sha1) = some s') :
    EvalStage ev Seen s' := by
  cases h with
  | lost hm hsent ho ht =>
    cases hc : s.batch.callers 0 with
    | resolved r => exact absurd hc (ho.not_resolved r)
    | _ => simp [evalStep, hm, hc] at hs
  | answered hm hsent ht hr hv =>
    simp only [evalStep, hm, hr, Option.some.injEq] at hs
    subst hs
    exact .returned rfl hsent hv
  | executing hm | reloading hm | failed hm | returned hm => simp [evalStep, hm] at hs

theorem EvalStage.step {e : EvalEvent sha1} (h : EvalStage ev Seen s) (hseen : Seen e)
    (hs : evalStep ev s e = some s') : EvalStage ev Seen s' := by
  cases e with
  | fetchIndex => exact h.inBatch (.inl rfl) (fun b ho hb => ho.fetchIndex hb) hs
  | push => exact h.inBatch (.inr (.inl rfl)) (fun b ho hb => ho.push hb) hs
  | compareExchange =>
    exact h.inBatch (.inr (.inr (.inl rfl))) (fun b ho hb => ho.compareExchange hb) hs
  | drain => exact h.inBatch (.inr (.inr (.inr rfl))) (fun b ho hb => ho.drain hb) hs
  | complete env sched => exact h.complete hseen hs
  | reload r => exact h.reload hs
  | join => exact h.join hs

variable {es : List (EvalEvent sha1)}

theorem evalStage_of_run (h : run (evalStep ev) .new es = some s) : EvalStage ev (· ∈ es) s :=
  (guardedRun_of_forall (P := (· ∈ es)) (fun _ he => he) h).invariant
    (fun _ _ _ hs hok hm => hs.step hok hm) (.executing rfl rfl .new)

theorem EvalStage.sent_le_one (h : EvalStage ev Seen s) : s.sent ≤ 1 := by
  cases h with
  | executing hm hs | reloading hm hs | lost hm hs => omega
  | answered hm hs | returned hm hs => omega
  | failed hm hs => exact hs

/-- However caller and task interleave, the script is sent at most once, retries included,
and an error that does not blame the replicas means that it was not sent. -/
theorem script_sent_at_most_once (h : run (evalStep ev) .new es = some s) :
    s.sent ≤ 1 ∧
      ∀ e, s.caller = .returned (.error e) → e ≠ SyncedEval.noneSynced → s.sent = 0 := by
  have hstage := evalStage_of_run h
  refine ⟨hstage.sent_le_one, fun e he hne => ?_⟩
  cases hstage with
  | failed hm hs hzero =>
    obtain rfl := Except.error.inj (EvalCaller.returned.inj (hm.symm.trans he))
    exact hzero hne
  | returned hm => simp [hm] at he
  | executing hm | reloading hm | lost hm | answered hm => simp [hm] at he

end Stages

/-! The script of `lockEval`, refused with NOSCRIPT by the first attempt and sent by the
second. -/

def refusedOnce : List (EvalEvent fun _ => "") :=
  [.fetchIndex, .push, .compareExchange, .drain,
    .complete { oneNodeEnvironment (.ok (.integer 1)) with
      enqueueError := fun _ => some ⟨"NOSCRIPT No matching script. Please use EVAL."⟩ } (.first 0),
    .reload (.ok ())] ++ pushFirst

theorem script_sent_at_most_once_refusedOnce :
    ∃ s, run (evalStep lockEval) .new refusedOnce = some s ∧ s.scriptLoaded = true ∧
      s.sent ≤ 1 ∧
      ∀ e, s.caller = .returned (.error e) → e ≠ SyncedEval.noneSynced → s.sent = 0 := by
  obtain ⟨s, hs, hl⟩ : ∃ s, run (evalStep lockEval) .new refusedOnce = some s ∧
      s.scriptLoaded = true := ⟨_, rfl, rfl⟩
  exact ⟨s, hs, hl, script_sent_at_most_once hs⟩

end Redisson
