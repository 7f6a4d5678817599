import Redisson.HashSlot
import Redisson.RedisBasedBatch

/-! What one `async0` of a Redis-based batch sends and leaves, and the transaction that a sequence
of them opens. -/

namespace Redisson

/-- The transaction that comes about: the pick and slot of its MULTI, and the commands from
the first accepted one on, WAIT and WAITAOF left out. The `i`-th of them is sent at pick
`pick + 1 + i`, EXEC right after the last. -/
structure Opening where
  pick : Nat
  slot : Slot
  commands : List RedisCommand

section Opening

variable (env : PoolEnvironment)

/-- Both the MULTI and the first command after it must be accepted; a command that fails
leaves the queue empty, and the next one sends MULTI again. -/
def opening : Nat → Option Slot → List RedisCommand → Option Opening
  | _, _, [] => none
  | n, slot, cmd :: cmds =>
    if isWaitCommand cmd then opening n slot cmds
    else
      let slot := (cmd.routingKey.map env.keyslot).or slot
      if env.accepts n then
        if env.accepts (n + 1) then
          some ⟨n, slot.getD 0, cmd :: cmds.filter (fun c => !isWaitCommand c)⟩
        else opening (n + 2) slot cmds
      else opening (n + 1) slot cmds

end Opening

section Sends

variable {svc : BatchService} {env : PoolEnvironment} {s : RedisBased} {cmd : RedisCommand}

theorem queueCommand_wait (hw : isWaitCommand cmd = true) :
    ((queueCommand svc env s cmd).1 = { s with nextIndex := s.nextIndex + 1 }) ∧
      (queueCommand svc env s cmd).2.1 = [] := by
  simp [queueCommand, hw]

theorem queueCommand_open (hw : isWaitCommand cmd = false) (he : s.entries ≠ []) :
    (queueCommand svc env s cmd).2.1 =
        [send svc env s.picks .command (RedisCommand.executeOn cmd)] ∧
      (queueCommand svc env s cmd).1.picks = s.picks + 1 ∧
      (queueCommand svc env s cmd).1.slot = s.slot ∧
      (queueCommand svc env s cmd).1.entries ≠ [] := by
  cases hr : env.reply s.picks <;> simp [queueCommand, hw, openTransaction, he, hr]

theorem queueCommand_empty (hw : isWaitCommand cmd = false) (he : s.entries = []) :
    let slot := (cmd.routingKey.map env.keyslot).or s.slot
    let multi := send svc env s.picks .multi (multiCall (slot.getD 0))
    let command := send svc env (s.picks + 1) .command (RedisCommand.executeOn cmd)
    let r := queueCommand svc env s cmd
    if env.accepts s.picks then
      if env.accepts (s.picks + 1) then
        r.1 = ⟨slot, [s.nextIndex], s.nextIndex + 1, s.picks + 2⟩ ∧ r.2.1 = [multi, command]
      else r.1 = ⟨slot, [], s.nextIndex + 1, s.picks + 2⟩ ∧ r.2.1 = [multi, command]
    else r.1 = ⟨slot, [], s.nextIndex + 1, s.picks + 1⟩ ∧ r.2.1 = [multi] := by
  cases hr : env.reply s.picks with
  | error e => simp [queueCommand, hw, openTransaction, he, hr, PoolEnvironment.accepts]
  | ok v =>
    cases hr' : env.reply (s.picks + 1) <;>
      simp [queueCommand, hw, openTransaction, he, hr, hr', PoolEnvironment.accepts]

theorem executeRedisBasedQueue_sends_nil {timeout : String} {timesOut : Option AwaitPoint}
    (he : s.entries = []) : (executeRedisBasedQueue svc env timeout timesOut s).sends = [] := by
  match timesOut with
  | none => simp [executeRedisBasedQueue, executeInner, he]
  | some .lock => rfl
  | some .exec => simp [executeRedisBasedQueue, sentBefore, he]
  | some .wait => simp [executeRedisBasedQueue, sentBefore, he]

theorem executeInner_sends (he : s.entries ≠ []) :
    (executeInner svc env s).sends = execSend svc env s :: waitSend svc env s := by
  unfold executeInner
  rw [if_neg (by simpa using he)]
  by_cases hs : svc.options.skipResult = true
  · simp [hs]
  · simp only [hs, Bool.false_eq_true, if_false]
    split <;> rfl

theorem queueAll_open_state {s : RedisBased} (cmds : List RedisCommand) (he : s.entries ≠ []) :
    (queueAll svc env s cmds).1.picks =
        s.picks + (cmds.filter (fun c => !isWaitCommand c)).length ∧
      (queueAll svc env s cmds).1.slot = s.slot ∧ (queueAll svc env s cmds).1.entries ≠ [] := by
  induction cmds generalizing s with
  | nil => exact ⟨rfl, rfl, he⟩
  | cons cmd cmds ih =>
    cases hw : isWaitCommand cmd with
    | true =>
      have hh := @ih { s with nextIndex := s.nextIndex + 1 } he
      simpa [queueAll, (queueCommand_wait hw).1, hw] using hh
    | false =>
      obtain ⟨-, hp, hs, hne⟩ := @queueCommand_open svc env s cmd hw he
      obtain ⟨ihp, ihs, ihe⟩ := ih hne
      refine ⟨?_, ihs.trans hs, ihe⟩
      simp only [queueAll, ihp, hp, hw, Bool.not_false, List.filter_cons_of_pos, List.length_cons]
      omega

end Sends

/-! A write batch whose owner is the only user of its pool, on the two-node cluster. -/

def writeAtomicService : BatchService :=
  ⟨{ BatchOptions.defaults with executionMode := .redisWriteAtomic }, 4, false, .master⟩

def idlePool (size : Nat) (h : 0 < size) : PoolEnvironment where
  size
  size_pos := h
  ticket n := n
  ticket_strictMono := strictMono_id
  keyslot := clusterSlot
  owner := halvedOwner
  replica _ s := s
  anyNode _ := lowerNode
  reply _ := .ok .queued
  debug _ := ""

end Redisson
