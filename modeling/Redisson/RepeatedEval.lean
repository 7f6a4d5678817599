import Redisson.CachedEval

/-! How often `eval_write_no_retry_async` runs its script. It looks for its two texts anywhere
in an error, which may be the script's own. -/

namespace Redisson

open EvalDialogue

variable {sha1 : String → String} {σ : Type}

def AsyncService.evalWriteNoRetryDialogue (svc : AsyncService sha1) :
    String → List Key → List Value → EvalDialogue :=
  svc.evalDialogue false true

section Server

variable (srv : ScriptServer σ) (others : Nat → Shared σ → Shared σ)

/-- The EVALSHA has run the script, and the error that comes back has it sent and run again. -/
def RunsAgain (evalsha load : SentCall) (s : Shared σ) : Prop :=
  let first := others 0 s
  let next := others 1 (srv.after evalsha first)
  srv.runs evalsha first.server = true ∧ ∃ e, srv.reply evalsha first.server = .error e ∧
    (e.contains "ERR unknown command" = true ∧
        srv.runs evalsha (others 2 { next with evalShaRoSupported := false }).server = true ∨
      e.contains "ERR unknown command" = false ∧ e.contains "NOSCRIPT" = true ∧
        (∃ v, srv.reply load next.server = .ok v) ∧
        srv.runs evalsha (others 2 (srv.after load next)).server = true)

theorem toNat_add_le_one (a b : Bool) : a.toNat + b.toNat ≤ 1 ↔ (a = true → b = false) := by
  cases a <;> cases b <;> simp

theorem evalMethod_evaluates (sha : String) (keys : List Key) (args : List Value) :
    (AsyncService.evalMethod "evalsha" sha keys args).evaluates = true := by
  simp [AsyncService.evalMethod, Call.evaluates]

theorem executions_evalSha (options : Options) (sha : String) (keys : List Key) (args : List Value)
    (others : Nat → Shared σ → Shared σ) (s : Shared σ) :
    srv.executions (evalSha options sha keys args) others s =
      (srv.runs ⟨AsyncService.evalMethod "evalsha" sha keys args, options⟩ (others 0 s).server).toNat :=
  srv.executions_ask (.send ⟨_, options⟩) Dialogue.done others s

/-- Whatever the server replies to SCRIPT LOAD, only the EVALSHA that may follow runs the script. -/
theorem executions_load (options : Options) (sha script : String) (keys : List Key)
    (args : List Value) (others : Nat → Shared σ → Shared σ) (s : Shared σ) :
    srv.executions ((EvalDialogue.send options (loadCall script)).bind
        (afterLoad false options sha keys args)) others s =
      match srv.reply ⟨loadCall script, options⟩ (others 0 s).server with
      | .ok _ => (srv.runs ⟨AsyncService.evalMethod "evalsha" sha keys args, options⟩
          (others 1 (srv.after ⟨loadCall script, options⟩ (others 0 s))).server).toNat
      | .error _ => 0 := by
  have hload : (loadCall script).evaluates = false := by simp [loadCall, Call.evaluates]
  rw [srv.executions_send, hload]
  cases srv.reply ⟨loadCall script, options⟩ (others 0 s).server with
  | ok v =>
    have hagain := executions_evalSha srv options sha keys args (fun i => others (i + 1))
      (srv.after ⟨loadCall script, options⟩ (others 0 s))
    simpa [afterLoad, evalShaCmd] using hagain
  | error e => simp [afterLoad, ScriptServer.executions_done]

theorem executions_cached (pinned : Options) (sha script : String) (keys : List Key)
    (args : List Value) (s : Shared σ) :
    srv.executions (cached false pinned sha script keys args) others s ≤ 1 ↔
      ¬ RunsAgain srv others ⟨AsyncService.evalMethod "evalsha" sha keys args, pinned⟩
        ⟨loadCall script, pinned⟩ s := by
  have hsend : srv.executions (cached false pinned sha script keys args) others s = _ :=
    srv.executions_send pinned (AsyncService.evalMethod "evalsha" sha keys args)
      (afterEvalSha false pinned sha script keys args) others s
  have hle := Bool.toNat_le
    (srv.runs ⟨AsyncService.evalMethod "evalsha" sha keys args, pinned⟩ (others 0 s).server)
  rw [hsend, evalMethod_evaluates, Bool.true_and]
  cases hr : srv.reply ⟨AsyncService.evalMethod "evalsha" sha keys args, pinned⟩
      (others 0 s).server with
  | ok v => simpa [afterEvalSha, ScriptServer.executions_done, RunsAgain, hr] using hle
  | error e =>
    cases hunknown : e.contains "ERR unknown command" with
    | true =>
      have hstore := srv.executions_ask .storeRoUnsupported
        (fun _ => evalSha pinned sha keys args) (fun i => others (i + 1))
        (srv.after ⟨AsyncService.evalMethod "evalsha" sha keys args, pinned⟩ (others 0 s))
      rw [executions_evalSha srv] at hstore
      simp only [afterEvalSha, hunknown, if_true, hstore, ScriptServer.ran, ScriptServer.answer,
        RunsAgain, hr]
      simpa [hunknown] using toNat_add_le_one _ _
    | false =>
      cases hnoscript : e.contains "NOSCRIPT" with
      | false =>
        simpa [afterEvalSha, hunknown, hnoscript, ScriptServer.executions_done, RunsAgain, hr] using hle
      | true =>
        simp only [afterEvalSha, hunknown, hnoscript, if_true, Bool.false_eq_true, if_false,
          executions_load, RunsAgain, hr]
        cases hload : srv.reply ⟨loadCall script, pinned⟩ (others 1 (srv.after
            ⟨AsyncService.evalMethod "evalsha" sha keys args, pinned⟩ (others 0 s))).server with
        | ok v => simpa [hunknown, hnoscript, hload] using toNat_add_le_one _ _
        | error e' => simpa [hunknown, hload] using hle

theorem evalWriteNoRetry_atMostOnce_iff (svc : AsyncService sha1) (script : String)
    (keys : List Key) (args : List Value) (s : Shared σ) :
    srv.executions (svc.evalWriteNoRetryDialogue script keys args) others s ≤ 1 ↔
      ¬ (svc.isEvalCacheActive = true ∧
        RunsAgain srv others
          ⟨AsyncService.evalMethod "evalsha" (sha1 script) keys args, svc.pinnedOptions true keys⟩
          ⟨loadCall script, svc.pinnedOptions true keys⟩ s) := by
  cases hcache : svc.isEvalCacheActive with
  | false =>
    have hsend := srv.executions_send (svc.evalOptions true)
      (AsyncService.evalMethod "eval" script keys args) Dialogue.done others s
    have hle := Bool.toNat_le
      ((AsyncService.evalMethod "eval" script keys args).evaluates &&
        srv.runs ⟨AsyncService.evalMethod "eval" script keys args, svc.evalOptions true⟩
          (others 0 s).server)
    have hone : srv.executions (EvalDialogue.send (svc.evalOptions true)
        (AsyncService.evalMethod "eval" script keys args)) others s ≤ 1 := hsend.trans_le hle
    simpa [AsyncService.evalWriteNoRetryDialogue, AsyncService.evalDialogue, hcache] using hone
  | true =>
    have h := executions_cached srv others (svc.pinnedOptions true keys)
      (sha1 script) script keys args s
    simpa [AsyncService.evalWriteNoRetryDialogue, AsyncService.evalDialogue, hcache] using h

end Server

/-- On a Redis that no one else uses, it takes a script that is loaded and such an error of its
own. -/
theorem runsAgain_redis {redis : Redis sha1 σ} {node : Server} {options : Options}
    (hpin : options.clusterNode = some node) (script : String) (keys : List Key)
    (args : List Value) (s : Nodes σ) :
    RunsAgain redis.server (fun _ s => s)
        ⟨AsyncService.evalMethod "evalsha" (sha1 script) keys args, options⟩
        ⟨loadCall script, options⟩ s ↔
      sha1 script ∈ (s.server node).scripts ∧
        ∃ e, (redis.runScript (sha1 script) false (operands keys args) (s.server node).data).1 =
            .error e ∧
          (e.contains "ERR unknown command" = true ∨ e.contains "NOSCRIPT" = true) := by
  have htexts : ∀ a b : Bool, a = true ∨ a = false ∧ b = true ↔ a = true ∨ b = true := by decide
  by_cases hsha : sha1 script ∈ (s.server node).scripts
  · simp [RunsAgain, Redis.server, ScriptServer.after, nodeOf_pinned redis hpin,
      redis.answerAt_evalSha, redis.answerAt_load, hsha, Redis.run, htexts]
  · simp [RunsAgain, Redis.server, nodeOf_pinned redis hpin, redis.answerAt_evalSha, hsha]

/-! A script that writes and returns an error that reads like one of Redis. -/

def failingRedis : Redis (fun script => script) Nat :=
  { incrementRedis with
    runScript _ _ _ n := (.error ⟨"ERR unknown command 'incrby2'"⟩, n + 1) }

theorem evalWriteNoRetry_runs_twice :
    ¬ failingRedis.server.executions (incrementService.evalWriteNoRetryDialogue "incr" [] [])
      (fun _ s => s) (freshNodes {"incr"}) ≤ 1 := by
  decide

end Redisson
