import Redisson.EvalDialogue
import Redisson.NoscriptRecovery
import Mathlib.Logic.Function.Basic

/-! What `eval_async` with its cache comes to on Redis: one run of the script, whichever of
EVALSHA_RO, EVALSHA and SCRIPT LOAD it takes. -/

namespace Redisson

open EvalDialogue Dialogue

/-! The part of Redis that runs scripts. -/

inductive ScriptRequest
  | eval (script : String) (operands : List Value)
  | evalSha (sha : String) (readOnly : Bool) (operands : List Value)
  | load (script : String)

def operands (keys : List Key) (args : List Value) : List Value :=
  .integer keys.length :: (keys.map .bytes ++ args)

def Call.scriptRequest : Call → Option ScriptRequest
  | .method name [.value (.string body), .keys keys, .values args] =>
    if name = "eval" then some (.eval body (operands keys args))
    else if name = "evalsha" then some (.evalSha body false (operands keys args))
    else none
  | .custom name _ (.string body :: rest) =>
    if name = "EVALSHA_RO" then some (.evalSha body true rest)
    else if name = "SCRIPT" ∧ body = "LOAD" then
      match rest with
      | [.string script] => some (.load script)
      | _ => none
    else none
  | _ => none

def Call.readsOnly : Call → Bool
  | .custom name _ _ => name = "EVALSHA_RO"
  | .method .. => false

structure RedisNode (σ : Type) where
  data : σ
  scripts : Finset String

structure NodeAnswer (σ : Type) where
  reply : Reply
  ran : Bool
  node : RedisNode σ

/-- Redis keeps a script as a function named by its SHA, and runs that function for EVAL too. -/
structure Redis (sha1 : String → String) (σ : Type) where
  knowsEvalShaRo : Bool
  runScript : (sha : String) → (readOnly : Bool) → (operands : List Value) → σ → Reply × σ
  unknownCommand : Call → Error
  unknown_text : ∀ call, (unknownCommand call).contains "ERR unknown command" = true
  route : Call → Server

namespace Redis

variable {sha1 : String → String} {σ : Type} (redis : Redis sha1 σ)

def run (sha : String) (readOnly : Bool) (operands : List Value) (n : RedisNode σ) : NodeAnswer σ :=
  let (reply, data) := redis.runScript sha readOnly operands n.data
  ⟨reply, true, { n with data }⟩

def answerAt (call : Call) (n : RedisNode σ) : NodeAnswer σ :=
  match call.scriptRequest with
  | some (.eval script operands) =>
    redis.run (sha1 script) false operands { n with scripts := insert (sha1 script) n.scripts }
  | some (.evalSha sha readOnly operands) =>
    if readOnly && !redis.knowsEvalShaRo then ⟨.error (redis.unknownCommand call), false, n⟩
    else if sha ∈ n.scripts then redis.run sha readOnly operands n
    else ⟨.error noscript, false, n⟩
  | some (.load script) =>
    ⟨.ok (.string (sha1 script)), false, { n with scripts := insert (sha1 script) n.scripts }⟩
  | none => ⟨.error (redis.unknownCommand call), false, n⟩

def nodeOf (c : SentCall) : Server := c.options.clusterNode.getD (redis.route c.call)

def server : ScriptServer (Server → RedisNode σ) where
  reply c s := (redis.answerAt c.call (s (redis.nodeOf c))).reply
  next c s := Function.update s (redis.nodeOf c) (redis.answerAt c.call (s (redis.nodeOf c))).node
  runs c s := (redis.answerAt c.call (s (redis.nodeOf c))).ran

def eval (script : String) (keys : List Key) (args : List Value) (n : RedisNode σ) : NodeAnswer σ :=
  redis.answerAt (AsyncService.evalMethod "eval" script keys args) n

def WritesNothing (sha : String) (operands : List Value) : Prop :=
  ∀ d, redis.runScript sha true operands d = redis.runScript sha false operands d

/-- The errors of the script itself have neither of the texts that `eval_async` looks for. -/
def PlainErrors (sha : String) (operands : List Value) : Prop :=
  ∀ readOnly d e, (redis.runScript sha readOnly operands d).1 = .error e →
    e.contains "ERR unknown command" = false ∧ e.contains "NOSCRIPT" = false

theorem answerAt_evalSha (sha : String) (keys : List Key) (args : List Value) (n : RedisNode σ) :
    redis.answerAt (AsyncService.evalMethod "evalsha" sha keys args) n =
      if sha ∈ n.scripts then redis.run sha false (operands keys args) n
      else ⟨.error noscript, false, n⟩ := by
  simp [answerAt, AsyncService.evalMethod, Call.scriptRequest]

theorem answerAt_evalShaRo (hash : ClusterHash) (sha : String) (keys : List Key) (args : List Value)
    (n : RedisNode σ) :
    redis.answerAt (.custom "EVALSHA_RO" hash (RedisCommand.scriptArgs sha keys args)) n =
      if redis.knowsEvalShaRo = false then
        ⟨.error (redis.unknownCommand (.custom "EVALSHA_RO" hash
          (RedisCommand.scriptArgs sha keys args))), false, n⟩
      else if sha ∈ n.scripts then redis.run sha true (operands keys args) n
      else ⟨.error noscript, false, n⟩ := by
  have hargs : RedisCommand.scriptArgs sha keys args = .string sha :: operands keys args := rfl
  simp [answerAt, hargs, Call.scriptRequest]

theorem answerAt_load (script : String) (n : RedisNode σ) :
    redis.answerAt (loadCall script) n =
      ⟨.ok (.string (sha1 script)), false, { n with scripts := insert (sha1 script) n.scripts }⟩ := by
  simp [answerAt, loadCall, Call.scriptRequest]

theorem eval_eq (script : String) (keys : List Key) (args : List Value) (n : RedisNode σ) :
    redis.eval script keys args n = redis.run (sha1 script) false (operands keys args)
      { n with scripts := insert (sha1 script) n.scripts } := by
  simp [eval, answerAt, AsyncService.evalMethod, Call.scriptRequest]

end Redis

theorem noscript_texts : noscript.contains "ERR unknown command" = false ∧
    noscript.contains "NOSCRIPT" = true := by decide

section Phases

variable {sha1 : String → String} {σ : Type} (redis : Redis sha1 σ) (node : Server) (sha : String)
  (keys : List Key) (args : List Value) (readOnly : Bool) (I : σ → σ → Prop)

abbrev Nodes (σ : Type) := Shared (Server → RedisNode σ)

/-- Steps that leave the script alone: only others have touched the data of the node. -/
structure NotRun (s s' : Nodes σ) (trace : List (Asked EvalRequest (Nodes σ))) : Prop where
  none : trace.countP redis.server.ran = 0
  kept : I (s.server node).data (s'.server node).data

/-- It was an EVALSHA_RO that had the script run. -/
def RanReadOnly (out : Outcome EvalRequest (Nodes σ) Reply) : Prop :=
  ∃ x ∈ out.trace, redis.server.ran x = true ∧
    ∃ c, x.request = .send c ∧ c.call.readsOnly = true

structure RanOnce (s : Nodes σ) (out : Outcome EvalRequest (Nodes σ) Reply) : Prop where
  once : out.trace.countP redis.server.ran = 1
  effect : ∃ ro d d', (ro = true → readOnly = true ∧ RanReadOnly redis out) ∧ I (s.server node).data d ∧
    redis.runScript sha ro (operands keys args) d = (out.value, d') ∧
    I d' (out.state.server node).data

/-- An EVALSHA that came too early. -/
structure Missed (s : Nodes σ) (out : Outcome EvalRequest (Nodes σ) Reply) : Prop where
  notRun : NotRun redis node I s out.state out.trace
  value : out.value = .error noscript
  unknown : ∃ x ∈ out.trace, sha ∉ (x.state.server node).scripts

/-- What others may do to the data of the node. -/
structure Keeps (others : Nat → Nodes σ → Nodes σ) : Prop where
  refl : ∀ d, I d d
  trans : ∀ {a b c}, I a b → I b c → I a c
  others : ∀ i s, I (s.server node).data ((others i s).server node).data

variable {redis node sha keys args readOnly I} {others : Nat → Nodes σ → Nodes σ} {s s' : Nodes σ}

theorem Keeps.later (h : Keeps node I others) (n : Nat) : Keeps node I fun i => others (i + n) :=
  ⟨h.refl, h.trans, fun i => h.others (i + n)⟩

theorem RanOnce.after {trace : List (Asked EvalRequest (Nodes σ))}
    {out : Outcome EvalRequest (Nodes σ) Reply} (hkeeps : Keeps node I others)
    (h : RanOnce redis node sha keys args readOnly I s' out)
    (hnot : NotRun redis node I s s' trace) :
    RanOnce redis node sha keys args readOnly I s ⟨trace ++ out.trace, out.value, out.state⟩ := by
  obtain ⟨ro, d, d', hro, hd, hrun, hd'⟩ := h.effect
  refine ⟨?_, ro, d, d', fun h => ?_, hkeeps.trans hnot.kept hd, hrun, hd'⟩
  · rw [List.countP_append, hnot.none, h.once]
  · obtain ⟨hread, x, hx, hran⟩ := hro h
    exact ⟨hread, x, List.mem_append_right trace hx, hran⟩

theorem NotRun.append {s'' : Nodes σ} {xs ys : List (Asked EvalRequest (Nodes σ))}
    (hkeeps : Keeps node I others) (hx : NotRun redis node I s s' xs)
    (hy : NotRun redis node I s' s'' ys) : NotRun redis node I s s'' (xs ++ ys) := by
  refine ⟨?_, hkeeps.trans hx.kept hy.kept⟩
  rw [List.countP_append, hx.none, hy.none]

theorem Missed.after {trace : List (Asked EvalRequest (Nodes σ))}
    {out : Outcome EvalRequest (Nodes σ) Reply} (hkeeps : Keeps node I others)
    (h : Missed redis node sha I s' out) (hnot : NotRun redis node I s s' trace) :
    Missed redis node sha I s ⟨trace ++ out.trace, out.value, out.state⟩ := by
  obtain ⟨x, hx, hsha⟩ := h.unknown
  exact ⟨hnot.append hkeeps h.notRun, h.value, x, List.mem_append_right trace hx, hsha⟩

theorem NotRun.of_request {q : EvalRequest} (hkeeps : Keeps node I others)
    (hran : redis.server.ran ⟨q, others 0 s⟩ = false)
    (hdata : ((redis.server.answer q (others 0 s)).2.server node).data =
      ((others 0 s).server node).data) :
    NotRun redis node I s (redis.server.answer q (others 0 s)).2 [⟨q, others 0 s⟩] := by
  refine ⟨by simp [hran], ?_⟩
  rw [hdata]
  exact hkeeps.others 0 s

variable (redis node sha keys args readOnly I) in
/-- How the EVALSHA of `eval_async`, with its fallback, ends. -/
def EvalPhase (s : Nodes σ) (out : Outcome EvalRequest (Nodes σ) Reply) : Prop :=
  RanOnce redis node sha keys args readOnly I s out ∨ Missed redis node sha I s out

theorem EvalPhase.after {trace : List (Asked EvalRequest (Nodes σ))}
    {out : Outcome EvalRequest (Nodes σ) Reply} (hkeeps : Keeps node I others)
    (h : EvalPhase redis node sha keys args readOnly I s' out)
    (hnot : NotRun redis node I s s' trace) :
    EvalPhase redis node sha keys args readOnly I s ⟨trace ++ out.trace, out.value, out.state⟩ := by
  cases h with
  | inl hran => exact .inl (hran.after hkeeps hnot)
  | inr hmissed => exact .inr (hmissed.after hkeeps hnot)

theorem EvalPhase.ask {q : EvalRequest} {k : q.Answer → EvalDialogue} (hkeeps : Keeps node I others)
    (hran : redis.server.ran ⟨q, others 0 s⟩ = false)
    (hdata : ((redis.server.answer q (others 0 s)).2.server node).data =
      ((others 0 s).server node).data)
    (h : EvalPhase redis node sha keys args readOnly I (redis.server.answer q (others 0 s)).2
      (redis.server.amid (k (redis.server.answer q (others 0 s)).1) (fun i => others (i + 1))
        (redis.server.answer q (others 0 s)).2)) :
    EvalPhase redis node sha keys args readOnly I s (redis.server.amid (.ask q k) others s) :=
  h.after hkeeps (NotRun.of_request hkeeps hran hdata)

variable {options : Options}

variable (redis) in
theorem nodeOf_pinned (hpin : options.clusterNode = some node) (call : Call) :
    redis.nodeOf ⟨call, options⟩ = node := by
  simp [Redis.nodeOf, hpin]

variable (redis node) in
def Redis.afterCall (call : Call) (s : Nodes σ) : Nodes σ :=
  { s with server := Function.update s.server node (redis.answerAt call (s.server node)).node }

theorem answer_pinned (hpin : options.clusterNode = some node) (call : Call) (s : Nodes σ) :
    redis.server.answer (.send ⟨call, options⟩) s =
      ((redis.answerAt call (s.server node)).reply, redis.afterCall node call s) := by
  have hnode := nodeOf_pinned redis hpin call
  simp only [ScriptServer.answer, ScriptServer.after, Redis.server, hnode]
  rfl

theorem ran_pinned (hpin : options.clusterNode = some node) (call : Call) (s : Nodes σ) :
    redis.server.ran ⟨.send ⟨call, options⟩, s⟩ =
      (call.evaluates && (redis.answerAt call (s.server node)).ran) := by
  simp [ScriptServer.ran, Redis.server, nodeOf_pinned redis hpin]

theorem amid_call (hpin : options.clusterNode = some node) (call : Call) (k : Reply → EvalDialogue)
    (others : Nat → Nodes σ → Nodes σ) (s : Nodes σ) :
    redis.server.amid ((EvalDialogue.send options call).bind k) others s =
      let rest := redis.server.amid (k (redis.answerAt call ((others 0 s).server node)).reply)
        (fun i => others (i + 1)) (redis.afterCall node call (others 0 s))
      ⟨⟨.send ⟨call, options⟩, others 0 s⟩ :: rest.trace, rest.value, rest.state⟩ := by
  have hanswer : redis.server.answer (.send ⟨call, options⟩) (others 0 s) = _ :=
    answer_pinned hpin call (others 0 s)
  simp only [ScriptServer.amid, EvalDialogue.send, Dialogue.bind, runAmid, hanswer]

/-- A call that has the script run, and whose reply is the last word. -/
theorem RanOnce.of_call {call : Call} {k : Reply → EvalDialogue} {ro : Bool}
    (hkeeps : Keeps node I others) (hpin : options.clusterNode = some node)
    (hcall : call.evaluates = true) (hro : ro = true → readOnly = true ∧ call.readsOnly = true)
    (hrun : redis.answerAt call ((others 0 s).server node) =
      redis.run sha ro (operands keys args) ((others 0 s).server node))
    (hk : ∀ r, r = (redis.run sha ro (operands keys args) ((others 0 s).server node)).reply →
      k r = .done r) :
    RanOnce redis node sha keys args readOnly I s
      (redis.server.amid ((EvalDialogue.send options call).bind k) others s) := by
  have hran : redis.server.ran ⟨.send ⟨call, options⟩, others 0 s⟩ = true := by
    simp [ran_pinned hpin, hcall, hrun, Redis.run]
  rw [amid_call hpin, hrun, hk _ rfl]
  refine ⟨?_, ro, ((others 0 s).server node).data, _, fun h => ?_, hkeeps.others 0 s, rfl, ?_⟩
  · simp [ScriptServer.amid, runAmid, hran]
  · obtain ⟨hread, hcall'⟩ := hro h
    exact ⟨hread, _, List.mem_cons_self, hran, _, rfl, hcall'⟩
  · simpa [ScriptServer.amid, runAmid, Redis.afterCall, hrun, Redis.run] using hkeeps.refl _

/-- A call that leaves the script alone. -/
theorem NotRun.of_call (call : Call) (hkeeps : Keeps node I others)
    (hpin : options.clusterNode = some node)
    (hran : (redis.answerAt call ((others 0 s).server node)).ran = false)
    (hdata : (redis.answerAt call ((others 0 s).server node)).node.data =
      ((others 0 s).server node).data) :
    NotRun redis node I s (redis.afterCall node call (others 0 s))
      [⟨.send ⟨call, options⟩, others 0 s⟩] := by
  refine ⟨by simp [ran_pinned hpin, hran], ?_⟩
  have h := hkeeps.others 0 s
  simpa [Redis.afterCall, hdata] using h

theorem Missed.of_call {call : Call} {k : Reply → EvalDialogue} (hkeeps : Keeps node I others)
    (hpin : options.clusterNode = some node)
    (hanswer : redis.answerAt call ((others 0 s).server node) =
      ⟨.error noscript, false, (others 0 s).server node⟩)
    (hsha : sha ∉ ((others 0 s).server node).scripts)
    (hk : k (.error noscript) = .done (.error noscript)) :
    Missed redis node sha I s
      (redis.server.amid ((EvalDialogue.send options call).bind k) others s) := by
  have hnot := NotRun.of_call call hkeeps hpin (by rw [hanswer]) (by rw [hanswer])
  rw [amid_call hpin, hanswer, hk]
  exact ⟨hnot, rfl, _, List.mem_singleton_self _, hsha⟩

theorem EvalPhase.of_call {call : Call} {k : Reply → EvalDialogue} (hkeeps : Keeps node I others)
    (hpin : options.clusterNode = some node) {r : Reply}
    (hanswer : redis.answerAt call ((others 0 s).server node) =
      ⟨r, false, (others 0 s).server node⟩)
    (h : EvalPhase redis node sha keys args readOnly I (redis.afterCall node call (others 0 s))
      (redis.server.amid (k r) (fun i => others (i + 1)) (redis.afterCall node call (others 0 s)))) :
    EvalPhase redis node sha keys args readOnly I s
      (redis.server.amid ((EvalDialogue.send options call).bind k) others s) := by
  have hnot := NotRun.of_call call hkeeps hpin (by rw [hanswer]) (by rw [hanswer])
  rw [amid_call hpin, hanswer]
  exact h.after hkeeps hnot

theorem evalSha_phase (hkeeps : Keeps node I others) (hpin : options.clusterNode = some node) :
    EvalPhase redis node sha keys args readOnly I s
      (redis.server.amid (evalSha options sha keys args) others s) := by
  have hanswer := redis.answerAt_evalSha sha keys args ((others 0 s).server node)
  by_cases hsha : sha ∈ ((others 0 s).server node).scripts
  · rw [if_pos hsha] at hanswer
    have hcall : (AsyncService.evalMethod "evalsha" sha keys args).evaluates = true := by
      simp [AsyncService.evalMethod, Call.evaluates]
    exact .inl (RanOnce.of_call (k := done) hkeeps hpin hcall (by simp) hanswer fun r _ => rfl)
  · rw [if_neg hsha] at hanswer
    exact .inr (Missed.of_call (k := done) hkeeps hpin hanswer hsha rfl)

theorem afterEvalShaRo_plain {r : Reply}
    (h : ∀ e, r = .error e → e.contains "ERR unknown command" = false) :
    afterEvalShaRo options sha keys args r = .done r := by
  cases r with
  | ok v => rfl
  | error e => simp [afterEvalShaRo, h e rfl]

theorem evalShaRo_phase (hkeeps : Keeps node I others) (hpin : options.clusterNode = some node)
    (hplain : redis.PlainErrors sha (operands keys args)) (hro : readOnly = true) :
    EvalPhase redis node sha keys args readOnly I s
      (redis.server.amid (evalShaRo options sha keys args) others s) := by
  refine EvalPhase.ask hkeeps rfl rfl ?_
  have hlater := hkeeps.later 1
  cases hflag : (others 0 s).evalShaRoSupported with
  | false =>
    simp only [ScriptServer.answer, hflag]
    exact evalSha_phase hlater hpin
  | true =>
    simp only [ScriptServer.answer, hflag, if_true]
    have hanswer := redis.answerAt_evalShaRo .firstKey sha keys args
      ((others 1 (others 0 s)).server node)
    by_cases hknows : redis.knowsEvalShaRo = false
    · rw [if_pos hknows] at hanswer
      refine EvalPhase.of_call hlater hpin hanswer ?_
      simp only [afterEvalShaRo, redis.unknown_text, if_true]
      exact EvalPhase.ask (hlater.later 1) rfl rfl (evalSha_phase ((hlater.later 1).later 1) hpin)
    · rw [if_neg hknows] at hanswer
      by_cases hsha : sha ∈ ((others 1 (others 0 s)).server node).scripts
      · rw [if_pos hsha] at hanswer
        refine .inl (RanOnce.of_call hlater hpin (by simp [Call.evaluates])
          (fun _ => ⟨hro, by simp [Call.readsOnly]⟩) hanswer ?_)
        intro r hr
        exact afterEvalShaRo_plain fun e he => (hplain true _ e (hr.symm.trans he)).1
      · rw [if_neg hsha] at hanswer
        refine .inr (Missed.of_call hlater hpin hanswer hsha (afterEvalShaRo_plain fun e he => ?_))
        obtain rfl : noscript = e := by simpa using he
        exact noscript_texts.1

theorem evalShaCmd_phase (hkeeps : Keeps node I others) (hpin : options.clusterNode = some node)
    (hplain : redis.PlainErrors sha (operands keys args)) :
    EvalPhase redis node sha keys args readOnly I s
      (redis.server.amid (evalShaCmd readOnly options sha keys args) others s) := by
  cases hro : readOnly with
  | false => exact evalSha_phase hkeeps hpin
  | true =>
    refine EvalPhase.ask hkeeps rfl rfl ?_
    cases hflag : (others 0 s).evalShaRoSupported with
    | false =>
      simp only [ScriptServer.answer, hflag]
      exact evalSha_phase (hkeeps.later 1) hpin
    | true =>
      simp only [ScriptServer.answer, hflag, if_true]
      exact evalShaRo_phase (hkeeps.later 1) hpin hplain rfl

end Phases

section Cached

variable {sha1 : String → String} {σ : Type} (redis : Redis sha1 σ) (node : Server)
  (script : String) (keys : List Key) (args : List Value) (readOnly : Bool) (I : σ → σ → Prop)
  (options : Options)

/-- Nobody flushes the script between SCRIPT LOAD and the end of `eval_async`. -/
def StaysLoaded (sha1 : String → String) (node : Server) (script : String)
    (trace : List (Asked EvalRequest (Nodes σ))) : Prop :=
  trace.Pairwise fun x y =>
    (∃ options, x.request = .send ⟨loadCall script, options⟩) →
      sha1 script ∈ (y.state.server node).scripts

variable {redis node script keys args readOnly I options} {others : Nat → Nodes σ → Nodes σ}
  {s : Nodes σ}

theorem afterEvalSha_plain {sha : String} {r : Reply}
    (h : ∀ e, r = .error e →
      e.contains "ERR unknown command" = false ∧ e.contains "NOSCRIPT" = false) :
    afterEvalSha readOnly options sha script keys args r = .done r := by
  cases r with
  | ok v => rfl
  | error e => simp [afterEvalSha, h e rfl]

theorem afterEvalSha_noscript {sha : String} :
    afterEvalSha readOnly options sha script keys args (.error noscript) =
      (EvalDialogue.send options (loadCall script)).bind (afterLoad readOnly options sha keys args) := by
  simp [afterEvalSha, noscript_texts]

theorem cached_ranOnce (hkeeps : Keeps node I others) (hpin : options.clusterNode = some node)
    (hplain : redis.PlainErrors (sha1 script) (operands keys args))
    (hloaded : StaysLoaded sha1 node script
      (redis.server.amid (cached readOnly options (sha1 script) script keys args) others s).trace) :
    RanOnce redis node (sha1 script) keys args readOnly I s
      (redis.server.amid (cached readOnly options (sha1 script) script keys args) others s) := by
  rw [cached, ScriptServer.amid_bind] at hloaded ⊢
  generalize hfirst : redis.server.amid (evalShaCmd readOnly options (sha1 script) keys args)
    others s = first at hloaded ⊢
  dsimp only at hloaded ⊢
  have hphase : EvalPhase redis node (sha1 script) keys args readOnly I s first :=
    hfirst ▸ evalShaCmd_phase hkeeps hpin hplain
  cases hphase with
  | inl hran =>
    obtain ⟨ro, d, d', hro, hd, hrun, hd'⟩ := hran.effect
    have hdone : afterEvalSha readOnly options (sha1 script) script keys args first.value =
        .done first.value :=
      afterEvalSha_plain fun e he => hplain ro d e (by rw [hrun]; exact he)
    rw [hdone]
    simpa [ScriptServer.amid, runAmid] using hran
  | inr hmissed =>
    have hlater := hkeeps.later first.trace.length
    generalize hothers : (fun i => others (i + first.trace.length)) = others' at *
    rw [hmissed.value, afterEvalSha_noscript, amid_call hpin, redis.answerAt_load] at hloaded ⊢
    dsimp only at hloaded ⊢
    have hnot := NotRun.of_call (loadCall script) (s := first.state) hlater hpin
      (by rw [redis.answerAt_load]) (by rw [redis.answerAt_load])
    cases evalShaCmd_phase (s := redis.afterCall node (loadCall script) (others' 0 first.state))
        (hlater.later 1) hpin hplain with
    | inl hran => exact (hran.after hlater hnot).after hlater hmissed.notRun
    | inr hagain =>
      obtain ⟨x, hx, hsha⟩ := hagain.unknown
      have hpair := (List.pairwise_cons.mp (List.pairwise_append.mp hloaded).2.1).1 x hx
      exact absurd (hpair ⟨options, rfl⟩) hsha

variable (redis node script keys args readOnly I) in
/-- The script has run once, and as EVAL runs it, unless it tried to write where EVALSHA_RO
ran it. -/
structure EvaluatedOnce (s : Nodes σ) (out : Outcome EvalRequest (Nodes σ) Reply) : Prop where
  once : out.trace.countP redis.server.ran = 1
  asEval : (readOnly = true → RanReadOnly redis out →
      redis.WritesNothing (sha1 script) (operands keys args)) →
    ∃ n : RedisNode σ, I (s.server node).data n.data ∧
      out.value = (redis.eval script keys args n).reply ∧
      I (redis.eval script keys args n).node.data (out.state.server node).data

theorem RanOnce.evaluatedOnce {out : Outcome EvalRequest (Nodes σ) Reply}
    (h : RanOnce redis node (sha1 script) keys args readOnly I s out) :
    EvaluatedOnce redis node script keys args readOnly I s out := by
  refine ⟨h.once, fun hreads => ?_⟩
  obtain ⟨ro, d, d', hro, hd, hrun, hd'⟩ := h.effect
  have heval : redis.runScript (sha1 script) false (operands keys args) d = (out.value, d') := by
    cases ro with
    | false => exact hrun
    | true =>
      obtain ⟨hread, hran⟩ := hro rfl
      rw [← hreads hread hran d]
      exact hrun
  refine ⟨⟨d, ∅⟩, hd, ?_, ?_⟩
  · simp [redis.eval_eq, Redis.run, heval]
  · simpa [redis.eval_eq, Redis.run, heval] using hd'

theorem evalDialogue_evaluatedOnce (svc : AsyncService sha1) (noRetry : Bool)
    (hcache : svc.isEvalCacheActive = true) (hentry : svc.nodeOfKeys keys = some node)
    (hkeeps : Keeps node I others) (hplain : redis.PlainErrors (sha1 script) (operands keys args))
    (hloaded : StaysLoaded sha1 node script
      (redis.server.amid (svc.evalDialogue readOnly noRetry script keys args) others s).trace) :
    EvaluatedOnce redis node script keys args readOnly I s
      (redis.server.amid (svc.evalDialogue readOnly noRetry script keys args) others s) := by
  have hpin : (svc.pinnedOptions noRetry keys).clusterNode = some node := by
    simp [AsyncService.pinnedOptions, hentry]
  have hdialogue : svc.evalDialogue readOnly noRetry script keys args =
      cached readOnly (svc.pinnedOptions noRetry keys) (sha1 script) script keys args := by
    simp [AsyncService.evalDialogue, hcache]
  rw [hdialogue] at hloaded ⊢
  exact (cached_ranOnce hkeeps hpin hplain hloaded).evaluatedOnce

end Cached

/-! `eval_async` as a function, when it is Redis that answers it. -/

namespace Redis

variable {sha1 : String → String} {σ : Type} (redis : Redis sha1 σ) (nodes : Server → RedisNode σ)

def afterCalls (sent : List SentCall) : Server → RedisNode σ :=
  sent.foldl (fun s c => redis.server.next c s) nodes

def replies (sent : List SentCall) : Reply :=
  match sent.getLast? with
  | some c => redis.server.reply c (redis.afterCalls nodes sent.dropLast)
  | none => .ok .null

theorem replies_append (sent : List SentCall) (c : SentCall) :
    redis.replies nodes (sent ++ [c]) = redis.server.reply c (redis.afterCalls nodes sent) := by
  simp [replies]

theorem afterCalls_append (sent : List SentCall) (c : SentCall) :
    redis.afterCalls nodes (sent ++ [c]) = redis.server.next c (redis.afterCalls nodes sent) := by
  simp [afterCalls]

def stateOf (w : World sha1) : Shared (Server → RedisNode σ) :=
  ⟨w.evalShaRoSupported, redis.afterCalls nodes w.sent⟩

theorem answer_related (svc : AsyncService sha1) (hserver : svc.server = redis.replies nodes)
    (q : EvalRequest) (w : World sha1) (s : Shared (Server → RedisNode σ))
    (hs : redis.stateOf nodes w = s) :
    (svc.answer q w).1 = (redis.server.answer q s).1 ∧
      redis.stateOf nodes (svc.answer q w).2 = (redis.server.answer q s).2 := by
  subst hs
  cases q with
  | loadRoSupported | storeRoUnsupported => exact ⟨rfl, rfl⟩
  | send c =>
    refine ⟨?_, ?_⟩
    · have hreply := redis.replies_append nodes w.sent c
      rw [← hserver] at hreply
      exact hreply
    · simp [AsyncService.answer, AsyncService.send, ScriptServer.answer, ScriptServer.after, stateOf,
        afterCalls_append]

theorem evalAsync_eq_amid (svc : AsyncService sha1) (hserver : svc.server = redis.replies nodes)
    (readOnly noRetry : Bool) (script : String) (keys : List Key) (args : List Value)
    (w : World sha1) :
    (svc.evalAsync readOnly noRetry script keys args w).1 =
      (redis.server.amid (svc.evalDialogue readOnly noRetry script keys args) (fun _ s => s)
        (redis.stateOf nodes w)).value := by
  generalize hd : svc.evalDialogue readOnly noRetry script keys args = d
  have halone : (_, _) = d.run redis.server.answer (redis.stateOf nodes w) :=
    runAmid_alone d (fun _ _ => rfl) (redis.stateOf nodes w)
  have hstart : redis.stateOf nodes
      (if svc.isEvalCacheActive then { w with caches := (w.caches.calcSha script).2 } else w) =
        redis.stateOf nodes w := by
    split <;> rfl
  have hrelated := run_related (redis.answer_related nodes svc hserver) d hstart
  rw [evalAsync_eq_run, hd, hrelated.1, ← halone]
  rfl

end Redis

/-! A script that increments, on one primary. -/

def primaryNode : Server := ⟨"primary", 6379⟩

def readOnlyError : Error := ⟨"ERR Write commands are not allowed from read-only scripts."⟩

def incrementRedis : Redis (fun script => script) Nat where
  knowsEvalShaRo := true
  runScript _ readOnly _ n :=
    if readOnly then (.error readOnlyError, n) else (.ok (.integer (n + 1)), n + 1)
  unknownCommand _ := ⟨"ERR unknown command"⟩
  unknown_text _ := by decide
  route _ := primaryNode

def incrementService : AsyncService fun script => script where
  isEvalCacheActive := true
  isBatch := false
  isSingle := false
  retryAttempts := some 3
  responseTimeout := none
  keyslot _ := 0
  getWriteEntry _ := some primaryNode
  server _ := .ok .null
  toText _ := .ok ""
  syncedBatch _ _ _ _ _ _ w := (.ok .null, w)

def freshNodes (scripts : Finset String) : Nodes Nat := ⟨true, fun _ => ⟨0, scripts⟩⟩

theorem incrementRedis_plainErrors (sha : String) (ops : List Value) :
    incrementRedis.PlainErrors sha ops := by
  intro readOnly d e h
  cases readOnly with
  | false => simp [incrementRedis] at h
  | true =>
    obtain rfl : readOnlyError = e := by simpa [incrementRedis] using h
    decide

theorem evalDialogue_evaluatedOnce_noscript :
    EvaluatedOnce incrementRedis primaryNode "incr" [] [] false Eq (freshNodes ∅)
      (incrementRedis.server.amid (incrementService.evalDialogue false true "incr" [] [])
        (fun _ s => s) (freshNodes ∅)) := by
  refine evalDialogue_evaluatedOnce incrementService true rfl rfl
    ⟨fun _ => rfl, fun hab hbc => hab.trans hbc, fun _ _ => rfl⟩ (incrementRedis_plainErrors _ _) ?_
  refine List.pairwise_cons.mpr ⟨fun y _ h => ?_, List.pairwise_cons.mpr ⟨fun y hy _ => ?_,
    List.pairwise_singleton _ _⟩⟩
  · obtain ⟨o, ho⟩ := h
    simp [AsyncService.evalMethod, loadCall] at ho
  · obtain rfl := List.mem_singleton.mp hy
    decide

/-- EVALSHA_RO refuses a write that EVAL would have made. -/
theorem evalRead_refuses_write :
    incrementService.isEvalCacheActive = true ∧
    incrementService.nodeOfKeys [] = some primaryNode ∧
    incrementRedis.PlainErrors "incr" (operands [] []) ∧
    (incrementRedis.server.amid (incrementService.evalDialogue true false "incr" [] [])
        (fun _ s => s) (freshNodes {"incr"})).value ≠
      (incrementRedis.eval "incr" [] [] ((freshNodes {"incr"}).server primaryNode)).reply := by
  refine ⟨rfl, rfl, incrementRedis_plainErrors _ _, ?_⟩
  have hvalue : (incrementRedis.server.amid (incrementService.evalDialogue true false "incr" [] [])
      (fun _ s => s) (freshNodes {"incr"})).value = .error readOnlyError := rfl
  have heval : (incrementRedis.eval "incr" [] []
      ((freshNodes {"incr"}).server primaryNode)).reply = .ok (.integer 1) := rfl
  rw [hvalue, heval]
  simp

end Redisson
