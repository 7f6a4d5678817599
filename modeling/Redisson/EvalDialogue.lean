import Redisson.CommandAsyncService
import Redisson.Dialogue

/-! `eval_async` amid other tasks, which may clear EVAL_SHA_RO_SUPPORTED and use the same
Redis nodes between any two of its steps. -/

namespace Redisson

/-! The steps of `eval_async` that others can see. -/

inductive EvalRequest
  | loadRoSupported
  | storeRoUnsupported
  | send (call : SentCall)

def EvalRequest.Answer : EvalRequest → Type
  | loadRoSupported => Bool
  | storeRoUnsupported => Unit
  | send _ => Reply

abbrev EvalDialogue := Dialogue EvalRequest EvalRequest.Answer Reply

namespace EvalDialogue

open AsyncService Dialogue

def send (options : Options) (call : Call) : EvalDialogue := ask (.send ⟨call, options⟩) done

def evalSha (options : Options) (sha : String) (keys : List Key) (args : List Value) : EvalDialogue :=
  send options (evalMethod "evalsha" sha keys args)

def afterEvalShaRo (options : Options) (sha : String) (keys : List Key) (args : List Value) :
    Reply → EvalDialogue
  | .ok v => done (.ok v)
  | .error e =>
    if e.contains "ERR unknown command" then
      ask .storeRoUnsupported fun _ => evalSha options sha keys args
    else done (.error e)

def evalShaRo (options : Options) (sha : String) (keys : List Key) (args : List Value) :
    EvalDialogue :=
  ask .loadRoSupported fun supported : Bool =>
    if supported then
      (send options (.custom "EVALSHA_RO" .firstKey (RedisCommand.scriptArgs sha keys args))).bind
        (afterEvalShaRo options sha keys args)
    else evalSha options sha keys args

def evalShaCmd (readOnly : Bool) (options : Options) (sha : String) (keys : List Key)
    (args : List Value) : EvalDialogue :=
  if readOnly then
    ask .loadRoSupported fun supported : Bool =>
      if supported then evalShaRo options sha keys args else evalSha options sha keys args
  else evalSha options sha keys args

def loadCall (script : String) : Call :=
  .custom "SCRIPT" .firstKey [.string "LOAD", .string script]

def afterLoad (readOnly : Bool) (pinned : Options) (sha : String) (keys : List Key)
    (args : List Value) : Reply → EvalDialogue
  | .ok _ => evalShaCmd readOnly pinned sha keys args
  | .error e => done (.error e)

def afterEvalSha (readOnly : Bool) (pinned : Options) (sha script : String) (keys : List Key)
    (args : List Value) : Reply → EvalDialogue
  | .ok v => done (.ok v)
  | .error e =>
    if e.contains "ERR unknown command" then
      ask .storeRoUnsupported fun _ => evalSha pinned sha keys args
    else if e.contains "NOSCRIPT" then
      (send pinned (loadCall script)).bind (afterLoad readOnly pinned sha keys args)
    else done (.error e)

/-- `eval_async` with its cache, on the node of `pinned`. -/
def cached (readOnly : Bool) (pinned : Options) (sha script : String) (keys : List Key)
    (args : List Value) : EvalDialogue :=
  (evalShaCmd readOnly pinned sha keys args).bind (afterEvalSha readOnly pinned sha script keys args)

end EvalDialogue

section Steps

variable {sha1 : String → String} (svc : AsyncService sha1)

def AsyncService.evalOptions (noRetry : Bool) : Options :=
  if noRetry then { svc.buildOptions with maxAttempts := some 1 } else svc.buildOptions

def AsyncService.pinnedOptions (noRetry : Bool) (keys : List Key) : Options :=
  match svc.nodeOfKeys keys with
  | some node => { svc.evalOptions noRetry with clusterNode := some node }
  | none => svc.evalOptions noRetry

def AsyncService.evalDialogue (readOnly noRetry : Bool) (script : String) (keys : List Key)
    (args : List Value) : EvalDialogue :=
  if !svc.isEvalCacheActive then
    EvalDialogue.send (svc.evalOptions noRetry) (evalMethod "eval" script keys args)
  else
    EvalDialogue.cached readOnly (svc.pinnedOptions noRetry keys) (sha1 script) script keys args

def AsyncService.answer : (q : EvalRequest) → World sha1 → q.Answer × World sha1
  | .loadRoSupported, w => (w.evalShaRoSupported, w)
  | .storeRoUnsupported, w => ((), { w with evalShaRoSupported := false })
  | .send c, w => svc.send c.options c.call w

open AsyncService EvalDialogue

theorem run_single (options : Options) (call : Call) (w : World sha1) :
    (EvalDialogue.send options call).run svc.answer w = svc.send options call w := rfl

theorem run_evalShaRo (options : Options) (sha : String) (keys : List Key) (args : List Value)
    (w : World sha1) :
    (evalShaRo options sha keys args).run svc.answer w =
      svc.execute options (.evalShaRo sha keys args) w := by
  cases hro : w.evalShaRoSupported with
  | false => simp [evalShaRo, Dialogue.run, AsyncService.answer, execute, hro, evalSha, run_single]
  | true =>
    simp only [evalShaRo, Dialogue.run, AsyncService.answer, execute, hro, if_pos,
      Dialogue.run_bind, run_single]
    cases hs : svc.send options (.custom "EVALSHA_RO" .firstKey
        (RedisCommand.scriptArgs sha keys args)) w with
    | mk reply w' =>
      cases reply with
      | ok v => rfl
      | error e =>
        by_cases hunknown : e.contains "ERR unknown command" = true
        · simp only [afterEvalShaRo, if_pos hunknown]
          rfl
        · simp only [afterEvalShaRo, if_neg hunknown]
          rfl

theorem run_evalShaCmd (readOnly : Bool) (options : Options) (sha : String) (keys : List Key)
    (args : List Value) (w : World sha1) :
    (evalShaCmd readOnly options sha keys args).run svc.answer w =
      svc.execute options (if readOnly && w.evalShaRoSupported then .evalShaRo sha keys args
        else .evalSha sha keys args) w := by
  cases readOnly with
  | false => rfl
  | true =>
    cases hro : w.evalShaRoSupported with
    | false => simp [evalShaCmd, Dialogue.run, AsyncService.answer, hro, evalSha, run_single, execute]
    | true => simp [evalShaCmd, Dialogue.run, AsyncService.answer, hro, run_evalShaRo]

theorem run_cached (readOnly : Bool) (pinned : Options) (sha script : String) (keys : List Key)
    (args : List Value) (w : World sha1) :
    (cached readOnly pinned sha script keys args).run svc.answer w =
      let cmd (w : World sha1) : RedisCommand :=
        if readOnly && w.evalShaRoSupported then .evalShaRo sha keys args else .evalSha sha keys args
      match svc.execute pinned (cmd w) w with
      | (.ok v, w) => (.ok v, w)
      | (.error e, w) =>
        if e.contains "ERR unknown command" then
          svc.execute pinned (.evalSha sha keys args) { w with evalShaRoSupported := false }
        else if e.contains "NOSCRIPT" then
          match svc.send pinned (loadCall script) w with
          | (.error e, w) => (.error e, w)
          | (.ok _, w) => svc.execute pinned (cmd w) w
        else (.error e, w) := by
  simp only [cached, Dialogue.run_bind, run_evalShaCmd]
  cases svc.execute pinned (if readOnly && w.evalShaRoSupported then .evalShaRo sha keys args
      else .evalSha sha keys args) w with
  | mk reply w' =>
    cases reply with
    | ok v => rfl
    | error e =>
      by_cases hunknown : e.contains "ERR unknown command" = true
      · simp only [afterEvalSha, if_pos hunknown]
        rfl
      · by_cases hnoscript : e.contains "NOSCRIPT" = true
        · simp only [afterEvalSha, if_neg hunknown, if_pos hnoscript, Dialogue.run_bind, run_single]
          cases svc.send pinned (loadCall script) w' with
          | mk loaded w'' =>
            cases loaded with
            | ok v => exact run_evalShaCmd svc readOnly pinned sha keys args w''
            | error e => rfl
        · simp only [afterEvalSha, if_neg hunknown, if_neg hnoscript]
          rfl

/-- Without others, the steps of `eval_async` are the function. -/
theorem evalAsync_eq_run (readOnly noRetry : Bool) (script : String) (keys : List Key)
    (args : List Value) (w : World sha1) :
    svc.evalAsync readOnly noRetry script keys args w =
      (svc.evalDialogue readOnly noRetry script keys args).run svc.answer
        (if svc.isEvalCacheActive then { w with caches := (w.caches.calcSha script).2 } else w) := by
  cases hcache : svc.isEvalCacheActive with
  | false => simp [evalAsync, evalDialogue, hcache, run_single, execute, evalOptions]
  | true =>
    simp only [evalDialogue, hcache, Bool.not_true, Bool.false_eq_true, if_false, if_true, run_cached]
    simp only [evalAsync, hcache, ScriptCaches.calcSha_fst]
    rfl

end Steps

/-! Whoever answers the calls, and may run the script for one. -/

structure ScriptServer (σ : Type) where
  reply : SentCall → σ → Reply
  next : SentCall → σ → σ
  runs : SentCall → σ → Bool

structure Shared (σ : Type) where
  evalShaRoSupported : Bool
  server : σ

/-- The calls by which `eval_async` asks for its script to be run. -/
def Call.evaluates : Call → Bool
  | .method name _ => name = "eval" || name = "evalsha"
  | .custom name _ _ => name = "EVALSHA_RO"

section Servers

variable {σ : Type} (srv : ScriptServer σ)

namespace ScriptServer

def after (c : SentCall) (s : Shared σ) : Shared σ := { s with server := srv.next c s.server }

def answer : (q : EvalRequest) → Shared σ → q.Answer × Shared σ
  | .loadRoSupported, s => (s.evalShaRoSupported, s)
  | .storeRoUnsupported, s => ((), { s with evalShaRoSupported := false })
  | .send c, s => (srv.reply c s.server, srv.after c s)

def ran (x : Dialogue.Asked EvalRequest (Shared σ)) : Bool :=
  match x.request with
  | .send c => c.call.evaluates && srv.runs c x.state.server
  | _ => false

def amid (d : EvalDialogue) (others : Nat → Shared σ → Shared σ) (s : Shared σ) :
    Dialogue.Outcome EvalRequest (Shared σ) Reply :=
  d.runAmid srv.answer others s

theorem amid_bind (d : EvalDialogue) (k : Reply → EvalDialogue)
    (others : Nat → Shared σ → Shared σ) (s : Shared σ) :
    srv.amid (d.bind k) others s =
      let first := srv.amid d others s
      let rest := srv.amid (k first.value) (fun i => others (i + first.trace.length)) first.state
      ⟨first.trace ++ rest.trace, rest.value, rest.state⟩ :=
  Dialogue.runAmid_bind d k others s

def executions (d : EvalDialogue) (others : Nat → Shared σ → Shared σ) (s : Shared σ) : Nat :=
  (srv.amid d others s).trace.countP srv.ran

theorem executions_done (r : Reply) (others : Nat → Shared σ → Shared σ) (s : Shared σ) :
    srv.executions (.done r) others s = 0 := rfl

theorem executions_ask (q : EvalRequest) (k : q.Answer → EvalDialogue)
    (others : Nat → Shared σ → Shared σ) (s : Shared σ) :
    srv.executions (.ask q k) others s =
      (srv.ran ⟨q, others 0 s⟩).toNat +
        srv.executions (k (srv.answer q (others 0 s)).1) (fun i => others (i + 1))
          (srv.answer q (others 0 s)).2 := by
  cases hran : srv.ran ⟨q, others 0 s⟩ with
  | false => simp [executions, amid, Dialogue.runAmid, hran]
  | true => simp [executions, amid, Dialogue.runAmid, hran, Nat.add_comm 1]

theorem executions_send (options : Options) (call : Call) (k : Reply → EvalDialogue)
    (others : Nat → Shared σ → Shared σ) (s : Shared σ) :
    srv.executions ((EvalDialogue.send options call).bind k) others s =
      (call.evaluates && srv.runs ⟨call, options⟩ (others 0 s).server).toNat +
        srv.executions (k (srv.reply ⟨call, options⟩ (others 0 s).server))
          (fun i => others (i + 1)) (srv.after ⟨call, options⟩ (others 0 s)) :=
  srv.executions_ask (.send ⟨call, options⟩) k others s

end ScriptServer

end Servers

end Redisson
