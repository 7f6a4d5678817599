import Redisson.GroupTask
import Mathlib.Order.Monotone.Basic

/-! The REDIS_READ_ATOMIC and REDIS_WRITE_ATOMIC path: MULTI and the commands are sent
while they are queued, EXEC when the batch is executed, each over a client that the pool
picks anew. -/

namespace Redisson

/-- What a batch meets outside itself. The pool rotates over `size` clients by one counter
shared by all its users; `ticket n` is the value taken by the `n`-th pick of this batch. In
READ mode `replica n` is the node chosen at that pick for a slot of the given primary. -/
structure PoolEnvironment where
  size : Nat
  size_pos : 0 < size
  ticket : Nat → Nat
  ticket_strictMono : StrictMono ticket
  keyslot : Key → Slot
  owner : Slot → Server
  replica : Nat → Server → Server
  anyNode : Nat → Server
  reply : Nat → Reply
  debug : Value → String

/-- MULTI state belongs to one client's connection to one node. -/
structure Connection where
  client : Nat
  node : Server
  deriving DecidableEq, Repr

inductive Purpose
  | multi
  | command
  | exec
  | wait
  deriving DecidableEq, Repr

structure Send where
  purpose : Purpose
  conn : Connection
  ok : Bool
  deriving DecidableEq, Repr

/-- The state of a Redis-based batch, with the number of picks it has made so far. Entries
hold the index that names both a command and its sender. -/
structure RedisBased where
  slot : Option Slot
  entries : List Nat
  nextIndex : Nat
  picks : Nat

def RedisBased.new : RedisBased := ⟨none, [], 0, 0⟩

def isWaitCommand : RedisCommand → Bool
  | .wait .. | .waitAof .. => true
  | _ => false

inductive AwaitPoint
  | lock
  | exec
  | wait
  deriving DecidableEq, Repr

namespace PoolEnvironment

variable (env : PoolEnvironment)

def client (n : Nat) : Nat := env.ticket n % env.size

def accepts (n : Nat) : Bool :=
  match env.reply n with
  | .ok _ => true
  | .error _ => false

end PoolEnvironment

section Queueing

variable (svc : BatchService) (env : PoolEnvironment)

def isRead : Bool := svc.options.executionMode = .redisReadAtomic

def nodeOf (n : Nat) : Option Slot → Server
  | some slot => if isRead svc then env.replica n (env.owner slot) else env.owner slot
  | none => env.anyNode n

def send (n : Nat) (purpose : Purpose) (call : Call) : Send :=
  ⟨purpose, ⟨env.client n, nodeOf svc env n (call.slot env.keyslot)⟩, env.accepts n⟩

def multiCall (slot : Slot) : Call := .custom "MULTI" (.custom slot) []

def execCall (slot : Slot) : Call := .custom "EXEC" (.custom slot) []

/-- The first command of a transaction determines the slot and opens with MULTI. -/
def openTransaction (s : RedisBased) (cmd : RedisCommand) :
    RedisBased × List Send × Except Error Unit :=
  if s.entries.isEmpty then
    let slot := (cmd.routingKey.map env.keyslot).or s.slot
    let multi := send svc env s.picks .multi (multiCall (slot.getD 0))
    let s' := { s with slot, picks := s.picks + 1 }
    match env.reply s.picks with
    | .ok _ => (s', [multi], .ok ())
    | .error e => (s', [multi], .error ⟨"MULTI failed: " ++ e.message⟩)
  else (s, [], .ok ())

/-- `async0` up to the point where it waits for its reply: what it sends, and the error it
returns at once if it does. -/
def queueCommand (s : RedisBased) (cmd : RedisCommand) :
    RedisBased × List Send × Except Error Unit :=
  let index := s.nextIndex
  let s := { s with nextIndex := index + 1 }
  if isWaitCommand cmd then
    (s, [], .error ⟨"WAIT/WAITAOF is not supported in REDIS_*_ATOMIC mode"⟩)
  else
    match openTransaction svc env s cmd with
    | (s, sends, .error e) => (s, sends, .error e)
    | (s, sends, .ok ()) =>
      let sends := sends ++ [send svc env s.picks .command (RedisCommand.executeOn cmd)]
      match env.reply s.picks with
      | .ok _ => ({ s with entries := s.entries ++ [index], picks := s.picks + 1 }, sends, .ok ())
      | .error e => ({ s with picks := s.picks + 1 }, sends, .error e)

def queueAll : RedisBased → List RedisCommand → RedisBased × List Send
  | s, [] => (s, [])
  | s, cmd :: cmds =>
    let (s, sends, _) := queueCommand svc env s cmd
    let (s, later) := queueAll s cmds
    (s, sends ++ later)

end Queueing

section Execution

variable (svc : BatchService) (env : PoolEnvironment)

structure RedisBasedRun where
  sends : List Send
  delivered : List (Nat × Reply)
  result : Except Error BatchResult

def execSend (s : RedisBased) : Send := send svc env s.picks .exec (execCall (s.slot.getD 0))

def waitSend (s : RedisBased) : List Send :=
  if Group.waits svc then
    [send svc env (s.picks + 1) .wait (makeWaitCmd (s.slot.getD 0) svc.options.syncAof
      svc.options.syncLocals svc.options.syncSlaves svc.options.syncTimeout)]
  else []

def executeInner (s : RedisBased) : RedisBasedRun :=
  if s.entries.isEmpty then ⟨[], [], .ok ⟨[], 0⟩⟩
  else
    let sends := execSend svc env s :: waitSend svc env s
    let syncedSlaves :=
      if Group.waits svc then extractSyncedSlaves (some (env.reply (s.picks + 1))) else 0
    if svc.options.skipResult then
      ⟨sends, s.entries.map (·, .ok .null), .ok ⟨[], syncedSlaves⟩⟩
    else
      match env.reply s.picks with
      | .ok (.array actual) =>
        ⟨sends, s.entries.zip (actual.map .ok),
          .ok ⟨((s.entries.zip actual).mergeSort fun a b => a.1 ≤ b.1).map Prod.snd, syncedSlaves⟩⟩
      | .ok .null =>
        ⟨sends, s.entries.map (·, .error ⟨"EXEC returned nil: transaction aborted by WATCH"⟩),
          .ok ⟨[], syncedSlaves⟩⟩
      | .ok other => ⟨sends, [], .error ⟨"unexpected EXEC response: " ++ env.debug other⟩⟩
      | .error e => ⟨sends, s.entries.map (·, .error e), .ok ⟨[], syncedSlaves⟩⟩

/-- The calls already sent when the timeout strikes at an await point. -/
def sentBefore (s : RedisBased) : AwaitPoint → List Send
  | .lock => []
  | .exec => if s.entries.isEmpty then [] else [execSend svc env s]
  | .wait => if s.entries.isEmpty then [] else execSend svc env s :: waitSend svc env s

def executeRedisBasedQueue (timeout : String) (timesOut : Option AwaitPoint) (s : RedisBased) :
    RedisBasedRun :=
  match timesOut with
  | none => executeInner svc env s
  | some point =>
    ⟨sentBefore svc env s point, [], .error ⟨"Batch execution timed out after " ++ timeout⟩⟩

def batchSends (timeout : String) (timesOut : Option AwaitPoint) (cmds : List RedisCommand) :
    List Send :=
  let (s, sends) := queueAll svc env .new cmds
  sends ++ (executeRedisBasedQueue svc env timeout timesOut s).sends

end Execution

end Redisson
