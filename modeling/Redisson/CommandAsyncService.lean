import Redisson.RedisCommand
import Redisson.ReplicationInfo
import Redisson.ServiceManager

/-! The default methods of `CommandAsyncServiceLike`: `RedisCommand::execute`, the EVAL
family with its script cache and its fallbacks, and `synced_eval` up to the point where it
either falls back or waits for replicas. -/

namespace Redisson

structure Options where
  maxAttempts : Option Nat
  timeout : Option Nat
  clusterNode : Option Server
  deriving DecidableEq, Repr

structure SentCall where
  call : Call
  options : Options

structure WaitSupport where
  wait : Bool
  waitAof : Bool
  deriving DecidableEq, Repr

/-- What the calls of a service read and write: the calls sent to Redis, oldest first, the
two process-wide support flags, the caches of `ServiceManager`, and `wait_support`. -/
structure World (sha1 : String → String) where
  sent : List SentCall
  evalShaRoSupported : Bool
  sortRoSupported : Bool
  caches : ScriptCaches sha1
  slaveInfo : AList (fun _ : Server => ReplicationInfo)
  waitSupport : Option WaitSupport

inductive SyncMode
  | auto
  | wait
  | waitAof
  deriving DecidableEq, Repr

/-- A service and what it talks to. `server` answers the last of the calls sent so far,
`toText` is how `fred` reads a reply as a string, and `syncedBatch` the loop of
`synced_eval` that executes a batch of the script and waits. -/
structure AsyncService (sha1 : String → String) where
  isEvalCacheActive : Bool
  isBatch : Bool
  isSingle : Bool
  retryAttempts : Option Nat
  responseTimeout : Option Nat
  keyslot : Key → Slot
  getWriteEntry : Slot → Option Server
  server : List SentCall → Reply
  toText : Value → Except Error String
  syncedBatch : (useAof : Bool) → (availableSlaves : Int) → (clusterNode : Option Server) →
    String → List Key → List Value → World sha1 → Reply × World sha1

namespace AsyncService

variable {sha1 : String → String} (svc : AsyncService sha1)

def buildOptions : Options := ⟨svc.retryAttempts, svc.responseTimeout, none⟩

def send (options : Options) (call : Call) (w : World sha1) : Reply × World sha1 :=
  let sent := w.sent ++ [⟨call, options⟩]
  (svc.server sent, { w with sent })

def evalMethod (name body : String) (keys : List Key) (args : List Value) : Call :=
  .method name [.value (.string body), .keys keys, .values args]

/-- `RedisCommand::execute`, which unlike `execute_on` probes EVALSHA_RO and SORT_RO. -/
def execute (options : Options) (cmd : RedisCommand) (w : World sha1) : Reply × World sha1 :=
  match cmd with
  | .eval script keys args => svc.send options (evalMethod "eval" script keys args) w
  | .evalSha sha keys args => svc.send options (evalMethod "evalsha" sha keys args) w
  | .evalShaRo sha keys args =>
    if w.evalShaRoSupported then
      match svc.send options (.custom "EVALSHA_RO" .firstKey (RedisCommand.scriptArgs sha keys args)) w with
      | (.ok v, w) => (.ok v, w)
      | (.error e, w) =>
        if e.contains "ERR unknown command" then
          svc.send options (evalMethod "evalsha" sha keys args) { w with evalShaRoSupported := false }
        else (.error e, w)
    else svc.send options (evalMethod "evalsha" sha keys args) w
  | .sortRo key =>
    if w.sortRoSupported then
      match svc.send options (.custom "SORT_RO" .firstKey [.bytes key]) w with
      | (.ok v, w) => (.ok v, w)
      | (.error e, w) =>
        if e.contains "ERR unknown command" then
          svc.send options (.custom "SORT" .firstKey [.bytes key]) { w with sortRoSupported := false }
        else (.error e, w)
    else svc.send options (.custom "SORT" .firstKey [.bytes key]) w
  | cmd => svc.send options (RedisCommand.executeOn cmd) w

def nodeOfKeys (keys : List Key) : Option Server :=
  svc.getWriteEntry ((keys.head?.map svc.keyslot).getD 0)

def evalAsync (readOnly noRetry : Bool) (script : String) (keys : List Key) (args : List Value)
    (w : World sha1) : Reply × World sha1 :=
  let options := if noRetry then { svc.buildOptions with maxAttempts := some 1 } else svc.buildOptions
  if !svc.isEvalCacheActive then svc.execute options (.eval script keys args) w
  else
    let pinned :=
      match svc.nodeOfKeys keys with
      | some node => { options with clusterNode := some node }
      | none => options
    let (sha, caches) := w.caches.calcSha script
    let w := { w with caches }
    let evalShaCmd (w : World sha1) : RedisCommand :=
      if readOnly && w.evalShaRoSupported then .evalShaRo sha keys args else .evalSha sha keys args
    match svc.execute pinned (evalShaCmd w) w with
    | (.ok v, w) => (.ok v, w)
    | (.error e, w) =>
      if e.contains "ERR unknown command" then
        svc.execute pinned (.evalSha sha keys args) { w with evalShaRoSupported := false }
      else if e.contains "NOSCRIPT" then
        match svc.send pinned (.custom "SCRIPT" .firstKey [.string "LOAD", .string script]) w with
        | (.error e, w) => (.error e, w)
        | (.ok _, w) => svc.execute pinned (evalShaCmd w) w
      else (.error e, w)

def evalWriteAsync := svc.evalAsync false false

def evalWriteNoRetryAsync := svc.evalAsync false true

def evalReadAsync := svc.evalAsync true false

def evalWriteFallback (retry : Bool) (script : String) (keys : List Key) (args : List Value)
    (w : World sha1) : Reply × World sha1 :=
  if retry then svc.evalWriteAsync script keys args w else svc.evalWriteNoRetryAsync script keys args w

def probeCommand (options : Options) (name : String) (args : List Value) (w : World sha1) :
    Except Error Bool × World sha1 :=
  match svc.send options (.custom name .firstKey args) w with
  | (.ok _, w) => (.ok true, w)
  | (.error e, w) => if e.contains "ERR unknown command" then (.ok false, w) else (.error e, w)

def probeWaitSupport (options : Options) (w : World sha1) : Except Error WaitSupport × World sha1 :=
  match w.waitSupport with
  | some support => (.ok support, w)
  | none =>
    match svc.probeCommand options "WAIT" [.integer 0, .integer 0] w with
    | (.error e, w) => (.error e, w)
    | (.ok wait, w) =>
      match svc.probeCommand options "WAITAOF" [.integer 0, .integer 0, .integer 0] w with
      | (.error e, w) => (.error e, w)
      | (.ok waitAof, w) => (.ok ⟨wait, waitAof⟩, { w with waitSupport := some ⟨wait, waitAof⟩ })

def queryReplicationInfo (options : Options) (w : World sha1) :
    Except Error ReplicationInfo × World sha1 :=
  match svc.send options (.method "info" [.value (.string "all")]) w with
  | (.ok v, w) => ((svc.toText v).map .parse, w)
  | (.error e, w) => (.error e, w)

def replicationInfo (options : Options) (clusterNode : Option Server) (w : World sha1) :
    Except Error ReplicationInfo × World sha1 :=
  match clusterNode.bind w.slaveInfo.lookup with
  | some cached => (.ok cached, w)
  | none =>
    match svc.queryReplicationInfo options w with
    | (.error e, w) => (.error e, w)
    | (.ok info, w) =>
      match clusterNode with
      | some node => (.ok info, { w with slaveInfo := w.slaveInfo.insert node info })
      | none => (.ok info, w)

def skips : SyncMode → WaitSupport → Bool
  | .auto, support => !support.wait && !support.waitAof
  | .wait, support => !support.wait
  | .waitAof, support => !support.waitAof

def syncedEval (mode : SyncMode) (retry : Bool) (script : String) (keys : List Key)
    (args : List Value) (w : World sha1) : Reply × World sha1 :=
  if svc.isSingle || svc.isBatch then svc.evalWriteFallback retry script keys args w
  else
    let clusterNode := svc.nodeOfKeys keys
    let nodeOptions := { svc.buildOptions with clusterNode }
    match svc.probeWaitSupport nodeOptions w with
    | (.error e, w) => (.error e, w)
    | (.ok support, w) =>
      if skips mode support then svc.evalWriteFallback retry script keys args w
      else
        match svc.replicationInfo nodeOptions clusterNode w with
        | (.error e, w) => (.error e, w)
        | (.ok repl, w) =>
          let useAof := support.waitAof && repl.aofEnabled && mode ≠ .wait
          let availableSlaves := if support.wait then repl.connectedSlaves else 0
          if availableSlaves = 0 && !useAof then svc.evalWriteFallback retry script keys args w
          else svc.syncedBatch useAof availableSlaves clusterNode script keys args w

def syncedEvalWithRetry := svc.syncedEval .wait true

def syncedEvalNoRetry := svc.syncedEval .wait false

end AsyncService

end Redisson
