import Redisson.BatchSystem
import Redisson.RedisBasedQueue

/-! What a Redis-based batch puts on the wire from its first `async0` to the end of its
`execute_async` or `discard_async`: each send with the call it carries, in the order of the
picks. Which of them are made depends on the accepted ones only. -/

namespace Redisson

inductive Ending
  | execute (timesOut : Option AwaitPoint)
  | discard
  deriving DecidableEq, Repr

/-- `discard_async`: the senders are told, nothing is sent. -/
def discardRedisBased (s : RedisBased) : RedisBasedRun :=
  ⟨[], s.entries.map (·, .error BatchState.discarded), .ok ⟨[], 0⟩⟩

section Calls

variable (svc : BatchService) (env : PoolEnvironment) (timeout : String)

def Ending.run (s : RedisBased) : Ending → RedisBasedRun
  | .execute timesOut => executeRedisBasedQueue svc env timeout timesOut s
  | .discard => discardRedisBased s

def endedSends (ending : Ending) (cmds : List RedisCommand) : List Send :=
  let (s, sends) := queueAll svc env .new cmds
  sends ++ (ending.run svc env timeout s).sends

def queueable (cmds : List RedisCommand) : List RedisCommand := cmds.filter fun c => !isWaitCommand c

def commandCall (cmd : RedisCommand) : Purpose × Call := (.command, RedisCommand.executeOn cmd)

/-- The calls of a sequence of `async0`, from the pick and slot of an empty queue on. -/
def queueCalls : Nat → Option Slot → List RedisCommand → List (Purpose × Call)
  | _, _, [] => []
  | n, slot, cmd :: cmds =>
    if isWaitCommand cmd then queueCalls n slot cmds
    else
      let slot := (cmd.routingKey.map env.keyslot).or slot
      (.multi, multiCall (slot.getD 0)) ::
        if env.accepts n then
          commandCall cmd ::
            if env.accepts (n + 1) then (queueable cmds).map commandCall
            else queueCalls (n + 2) slot cmds
        else queueCalls (n + 1) slot cmds

def waitCalls (slot : Slot) : List Call :=
  if Group.waits svc then
    [makeWaitCmd slot svc.options.syncAof svc.options.syncLocals svc.options.syncSlaves
      svc.options.syncTimeout]
  else []

def Ending.calls (slot : Slot) : Ending → List (Purpose × Call)
  | .discard | .execute (some .lock) => []
  | .execute (some .exec) => [(.exec, execCall slot)]
  | .execute none | .execute (some .wait) =>
    (.exec, execCall slot) :: (waitCalls svc slot).map fun c => (.wait, c)

def batchCalls (ending : Ending) (cmds : List RedisCommand) : List (Purpose × Call) :=
  queueCalls env 0 none cmds ++
    match opening env 0 none cmds with
    | some o => ending.calls svc o.slot
    | none => []

def sendAll (n : Nat) (calls : List (Purpose × Call)) : List Send :=
  (calls.zipIdx n).map fun w => send svc env w.2 w.1.1 w.1.2

end Calls

/-- Along the commands as they meet an empty queue: WAIT is passed over, the first command that
is accepted after its MULTI opens the transaction, and a refusal leaves the queue empty. -/
@[elab_as_elim]
theorem queueing_induction (env : PoolEnvironment)
    {motive : Nat → Option Slot → List RedisCommand → Prop}
    (nil : ∀ n slot, motive n slot [])
    (wait : ∀ n slot cmd cmds, isWaitCommand cmd = true → motive n slot cmds →
      motive n slot (cmd :: cmds))
    (opened : ∀ n slot cmd cmds, isWaitCommand cmd = false → env.accepts n = true →
      env.accepts (n + 1) = true → motive n slot (cmd :: cmds))
    (commandRefused : ∀ n slot cmd cmds, isWaitCommand cmd = false → env.accepts n = true →
      env.accepts (n + 1) = false → motive (n + 2) ((cmd.routingKey.map env.keyslot).or slot) cmds →
      motive n slot (cmd :: cmds))
    (multiRefused : ∀ n slot cmd cmds, isWaitCommand cmd = false → env.accepts n = false →
      motive (n + 1) ((cmd.routingKey.map env.keyslot).or slot) cmds → motive n slot (cmd :: cmds))
    (n : Nat) (slot : Option Slot) (cmds : List RedisCommand) : motive n slot cmds := by
  induction cmds generalizing n slot with
  | nil => exact nil n slot
  | cons cmd cmds ih =>
    cases hw : isWaitCommand cmd with
    | true => exact wait n slot cmd cmds hw (ih n slot)
    | false =>
      cases hm : env.accepts n with
      | false => exact multiRefused n slot cmd cmds hw hm (ih _ _)
      | true =>
        cases ha : env.accepts (n + 1) with
        | false => exact commandRefused n slot cmd cmds hw hm ha (ih _ _)
        | true => exact opened n slot cmd cmds hw hm ha

section Picks

variable {svc : BatchService} {env : PoolEnvironment} {timeout : String}

@[simp] theorem sendAll_nil (n : Nat) : sendAll svc env n [] = [] := rfl

@[simp] theorem sendAll_cons (n : Nat) (w : Purpose × Call) (calls : List (Purpose × Call)) :
    sendAll svc env n (w :: calls) = send svc env n w.1 w.2 :: sendAll svc env (n + 1) calls := by
  simp [sendAll, List.zipIdx_cons]

theorem sendAll_append (n : Nat) (calls calls' : List (Purpose × Call)) :
    sendAll svc env n (calls ++ calls') =
      sendAll svc env n calls ++ sendAll svc env (n + calls.length) calls' := by
  simp [sendAll, List.zipIdx_append]

theorem sendAll_getElem? {n i : Nat} {calls : List (Purpose × Call)} :
    (sendAll svc env n calls)[i]? = calls[i]?.map fun w => send svc env (n + i) w.1 w.2 := by
  simp [sendAll, Function.comp_def]

@[simp] theorem sendAll_length (n : Nat) (calls : List (Purpose × Call)) :
    (sendAll svc env n calls).length = calls.length := by simp [sendAll]

theorem queueAll_open_sends {s : RedisBased} (cmds : List RedisCommand) (he : s.entries ≠ []) :
    (queueAll svc env s cmds).2 = sendAll svc env s.picks ((queueable cmds).map commandCall) := by
  induction cmds generalizing s with
  | nil => rfl
  | cons cmd cmds ih =>
    cases hw : isWaitCommand cmd with
    | true =>
      have hh := @ih { s with nextIndex := s.nextIndex + 1 } he
      simpa [queueAll, queueCommand_wait hw, queueable, hw] using hh
    | false =>
      obtain ⟨hsends, hp, -, hne⟩ := @queueCommand_open svc env s cmd hw he
      have hh := ih hne
      simp [queueAll, hsends, hh, hp, queueable, hw, commandCall]

/-- From an empty queue, what is sent and whether a transaction comes about. -/
theorem queueAll_empty {s : RedisBased} (cmds : List RedisCommand) (he : s.entries = []) :
    (queueAll svc env s cmds).2 = sendAll svc env s.picks (queueCalls env s.picks s.slot cmds) ∧
      (queueAll svc env s cmds).1.picks = s.picks + (queueCalls env s.picks s.slot cmds).length ∧
      match opening env s.picks s.slot cmds with
      | some o => (queueAll svc env s cmds).1.entries ≠ [] ∧
          (queueAll svc env s cmds).1.slot.getD 0 = o.slot
      | none => (queueAll svc env s cmds).1.entries = [] := by
  induction cmds generalizing s with
  | nil => exact ⟨rfl, rfl, he⟩
  | cons cmd cmds ih =>
    cases hw : isWaitCommand cmd with
    | true =>
      have hh := @ih { s with nextIndex := s.nextIndex + 1 } he
      simpa [queueAll, queueCommand_wait hw, queueCalls, opening, hw] using hh
    | false =>
      have hc := @queueCommand_empty svc env s cmd hw he
      simp only at hc
      by_cases hm : env.accepts s.picks = true
      · by_cases ha : env.accepts (s.picks + 1) = true
        · rw [if_pos hm, if_pos ha] at hc
          have hopen : (queueCommand svc env s cmd).1.entries ≠ [] := by simp [hc.1]
          obtain ⟨hp, hs, hne⟩ := @queueAll_open_state svc env _ cmds hopen
          have hsends := @queueAll_open_sends svc env _ cmds hopen
          rw [hc.1] at hp hs hne hsends
          simp only [queueAll, hc.1, hc.2, queueCalls, opening, hw, hm, ha, Bool.false_eq_true,
            if_false, if_true, hsends, hp, hs]
          refine ⟨?_, ?_, hne, trivial⟩
          · simp [commandCall]
          · simp only [queueable, List.length_cons, List.length_map]
            omega
        · rw [if_pos hm, if_neg ha] at hc
          have hh := @ih ⟨(cmd.routingKey.map env.keyslot).or s.slot, [], s.nextIndex + 1, s.picks + 2⟩ rfl
          simp only [queueAll, hc.1, hc.2, queueCalls, opening, hw, hm, ha, Bool.false_eq_true,
            if_false, if_true]
          refine ⟨?_, ?_, hh.2.2⟩
          · simp [hh.1, commandCall]
          · simp only [hh.2.1, List.length_cons]
            omega
      · rw [if_neg hm] at hc
        have hh := @ih ⟨(cmd.routingKey.map env.keyslot).or s.slot, [], s.nextIndex + 1, s.picks + 1⟩ rfl
        simp only [queueAll, hc.1, hc.2, queueCalls, opening, hw, hm, Bool.false_eq_true, if_false]
        refine ⟨?_, ?_, hh.2.2⟩
        · simp [hh.1]
        · simp only [hh.2.1, List.length_cons]
          omega

theorem Ending.run_empty {s : RedisBased} {ending : Ending} (he : s.entries = []) :
    (ending.run svc env timeout s).sends = [] := by
  cases ending with
  | execute timesOut => exact executeRedisBasedQueue_sends_nil he
  | discard => rfl

theorem waitSend_eq {s : RedisBased} :
    waitSend svc env s =
      sendAll svc env (s.picks + 1) ((waitCalls svc (s.slot.getD 0)).map fun c => (.wait, c)) := by
  cases hw : Group.waits svc <;> simp [waitSend, waitCalls, hw]

theorem Ending.run_open {s : RedisBased} {ending : Ending} (he : s.entries ≠ []) :
    (ending.run svc env timeout s).sends =
      sendAll svc env s.picks (ending.calls svc (s.slot.getD 0)) := by
  match ending with
  | .discard => rfl
  | .execute (some .lock) => rfl
  | .execute (some .exec) =>
    simp [Ending.run, Ending.calls, executeRedisBasedQueue, sentBefore, he, execSend]
  | .execute none =>
    simp [Ending.run, Ending.calls, executeRedisBasedQueue, executeInner_sends he, execSend, waitSend_eq]
  | .execute (some .wait) =>
    simp [Ending.run, Ending.calls, executeRedisBasedQueue, sentBefore, he, execSend, waitSend_eq]

/-- The `n`-th send of a batch is made at its `n`-th pick and carries its `n`-th call. -/
theorem endedSends_eq (ending : Ending) (cmds : List RedisCommand) :
    endedSends svc env timeout ending cmds = sendAll svc env 0 (batchCalls svc env ending cmds) := by
  obtain ⟨hsends, hpicks, hopen⟩ := @queueAll_empty svc env .new cmds rfl
  simp only [RedisBased.new, Nat.zero_add] at hsends hpicks hopen
  simp only [endedSends, batchCalls, sendAll_append, RedisBased.new, hsends]
  cases ho : opening env 0 none cmds with
  | none =>
    rw [ho] at hopen
    simp [Ending.run_empty hopen]
  | some o =>
    rw [ho] at hopen
    simp [Ending.run_open hopen.1, hopen.2, hpicks]

theorem batchSends_eq (timesOut : Option AwaitPoint) (cmds : List RedisCommand) :
    batchSends svc env timeout timesOut cmds =
      sendAll svc env 0 (batchCalls svc env (.execute timesOut) cmds) :=
  endedSends_eq (.execute timesOut) cmds

end Picks

end Redisson
