import Redisson.CachedEval
import Redisson.DialogueLogic

/-! What one `eval_async` sends, whoever answers and whatever other tasks do between its
steps: how many calls, with which options, and which reply it returns. -/

namespace Redisson

open EvalDialogue Dialogue

/-- The calls of a dialogue with their replies, and whether EVAL_SHA_RO_SUPPORTED is known to
be false: nothing in the program ever sets it. -/
structure EvalLog where
  calls : List (SentCall × Reply)
  cleared : Bool

namespace EvalLog

def note : EvalLog → (q : EvalRequest) → q.Answer → EvalLog
  | log, .loadRoSupported, (supported : Bool) => { log with cleared := log.cleared || !supported }
  | log, .storeRoUnsupported, _ => { log with cleared := true }
  | log, .send call, (reply : Reply) => { log with calls := log.calls ++ [(call, reply)] }

def Possible : EvalLog → (q : EvalRequest) → q.Answer → Prop
  | log, .loadRoSupported, supported => log.cleared = true → supported = false
  | _, .storeRoUnsupported, _ | _, .send _, _ => True

def ghost : Ghost EvalRequest EvalRequest.Answer EvalLog := ⟨note, Possible⟩

def Describes {σ : Type} (log : EvalLog) (s : Shared σ) : Prop :=
  log.cleared = true → s.evalShaRoSupported = false

end EvalLog

/-- Others only ever clear the flag. -/
def OnlyClear {σ : Type} (others : Nat → Shared σ → Shared σ) : Prop :=
  ∀ i s, s.evalShaRoSupported = false → (others i s).evalShaRoSupported = false

theorem EvalLog.sound {σ : Type} (srv : ScriptServer σ) {others : Nat → Shared σ → Shared σ}
    (h : OnlyClear others) : ghost.Sound srv.answer others Describes := by
  refine ⟨fun log q s hd => ?_, fun log q s hd => ?_, fun i log s hd hc => h i s (hd hc)⟩
  · cases q with
    | loadRoSupported => exact hd
    | storeRoUnsupported | send c => trivial
  · cases q with
    | loadRoSupported =>
      intro hc
      rcases Bool.or_eq_true _ _ ▸ hc with hc | hc
      · exact hd hc
      · simpa [ScriptServer.answer] using hc
    | storeRoUnsupported => exact fun _ => rfl
    | send c => exact hd

section Calls

variable (options : Options) (sha : String) (keys : List Key) (args : List Value)

def evalShaCall : SentCall := ⟨AsyncService.evalMethod "evalsha" sha keys args, options⟩

def evalShaRoCall : SentCall :=
  ⟨.custom "EVALSHA_RO" .firstKey (RedisCommand.scriptArgs sha keys args), options⟩

/-- What `RedisCommand::execute` may have sent for the EVALSHA command of `eval_async`. -/
inductive EvalShaSent (readOnly : Bool) (log : EvalLog) : EvalLog → Reply → Prop
  | evalSha {cleared : Bool} (hlog : log.cleared = true → cleared = true)
      (hro : readOnly = true → cleared = true) (r : Reply) : EvalShaSent readOnly log
        ⟨log.calls ++ [(evalShaCall options sha keys args, r)], cleared⟩ r
  | evalShaRo (hro : readOnly = true) (hlog : log.cleared = false) (r : Reply) :
      EvalShaSent readOnly log
        ⟨log.calls ++ [(evalShaRoCall options sha keys args, r)], log.cleared⟩ r
  | both (hro : readOnly = true) (hlog : log.cleared = false) (refused r : Reply) :
      EvalShaSent readOnly log ⟨log.calls ++ [(evalShaRoCall options sha keys args, refused),
        (evalShaCall options sha keys args, r)], true⟩ r

variable {options sha keys args} {readOnly : Bool} {log : EvalLog} {post : EvalLog → Reply → Prop}

theorem wp_send {call : Call}
    (h : ∀ r, post { log with calls := log.calls ++ [(⟨call, options⟩, r)] } r) :
    (EvalDialogue.send options call).wp EvalLog.ghost post log := fun r _ => h r

theorem wp_evalSha (cleared : Bool) (hlog : log.cleared = true → cleared = true)
    (hro : readOnly = true → cleared = true)
    (h : ∀ log' r, EvalShaSent options sha keys args readOnly log log' r → post log' r) :
    (evalSha options sha keys args).wp EvalLog.ghost post { log with cleared } :=
  wp_send fun r => h _ r (.evalSha hlog hro r)

/-- The flag is read as true only while it is not known to be false. -/
theorem wp_load {k : Bool → EvalDialogue}
    (hfalse : (k false).wp EvalLog.ghost post { log with cleared := true })
    (htrue : log.cleared = false → (k true).wp EvalLog.ghost post log) :
    wp EvalLog.ghost post (ask .loadRoSupported k) log := by
  intro supported hpossible
  cases supported with
  | false =>
    have hnote : EvalLog.ghost.note log .loadRoSupported false = { log with cleared := true } := by
      simp [EvalLog.ghost, EvalLog.note]
    exact (congrArg (wp EvalLog.ghost post (k false)) hnote).mpr hfalse
  | true =>
    cases hc : log.cleared with
    | true => cases hpossible hc
    | false =>
      have hnote : EvalLog.ghost.note log .loadRoSupported true = log := by
        cases log
        simp_all [EvalLog.ghost, EvalLog.note]
      exact (congrArg (wp EvalLog.ghost post (k true)) hnote).mpr (htrue hc)

theorem wp_evalShaRo (hro : readOnly = true)
    (h : ∀ log' r, EvalShaSent options sha keys args readOnly log log' r → post log' r) :
    (evalShaRo options sha keys args).wp EvalLog.ghost post log := by
  refine wp_load (wp_evalSha true (fun _ => rfl) (fun _ => rfl) h) fun hcleared => ?_
  rw [if_pos rfl, wp_bind]
  refine wp_send fun r => ?_
  have hone := h _ _ (.evalShaRo hro hcleared r)
  cases r with
  | ok v => exact hone
  | error e =>
    by_cases hunknown : e.contains "ERR unknown command" = true
    · simp only [afterEvalShaRo, if_pos hunknown]
      refine fun _ _ => wp_send fun r => ?_
      have hboth := h _ _ (.both hro hcleared (.error e) r)
      simpa [EvalLog.ghost, EvalLog.note, evalShaRoCall, evalShaCall] using hboth
    · simp only [afterEvalShaRo, if_neg hunknown]
      exact hone

theorem wp_evalShaCmd
    (h : ∀ log' r, EvalShaSent options sha keys args readOnly log log' r → post log' r) :
    (evalShaCmd readOnly options sha keys args).wp EvalLog.ghost post log := by
  cases hro : readOnly with
  | false => exact wp_evalSha log.cleared id (by simp [hro]) h
  | true =>
    refine wp_load (wp_evalSha true (fun _ => rfl) (fun _ => rfl) h) fun _ => ?_
    exact wp_evalShaRo hro h

def Call.loadsScript : Call → Bool
  | .custom name _ _ => name = "SCRIPT"
  | .method .. => false

/-- Calls of the EVALSHA family with the same options, of which the last was answered with `r`. -/
structure EvalShaCalls (options : Options) (readOnly : Bool) (calls : List (SentCall × Reply))
    (r : Reply) : Prop where
  pinned : ∀ x ∈ calls, x.1.options = options
  noLoad : ∀ x ∈ calls, x.1.call.loadsScript = false
  writes : readOnly = false → ∀ x ∈ calls, x.1.call.readsOnly = false
  last : ∃ call, calls.getLast? = some (call, r)

theorem EvalShaCalls.evalSha (r : Reply) :
    EvalShaCalls options readOnly [(evalShaCall options sha keys args, r)] r :=
  ⟨by simp [evalShaCall], by simp [evalShaCall, AsyncService.evalMethod, Call.loadsScript],
    by simp [evalShaCall, AsyncService.evalMethod, Call.readsOnly], _, rfl⟩

theorem EvalShaCalls.evalShaRo (hro : readOnly = true) (r : Reply) :
    EvalShaCalls options readOnly [(evalShaRoCall options sha keys args, r)] r :=
  ⟨by simp [evalShaRoCall], by simp [evalShaRoCall, Call.loadsScript], by simp [hro], _, rfl⟩

theorem EvalShaCalls.append {calls calls' : List (SentCall × Reply)} {r r' : Reply}
    (h : EvalShaCalls options readOnly calls r) (h' : EvalShaCalls options readOnly calls' r') :
    EvalShaCalls options readOnly (calls ++ calls') r' := by
  obtain ⟨call, hlast⟩ := h'.last
  refine ⟨fun x hx => ?_, fun x hx => ?_, fun hro x hx => ?_, call, by simp [hlast]⟩
  · exact (List.mem_append.mp hx).elim (h.pinned x) (h'.pinned x)
  · exact (List.mem_append.mp hx).elim (h.noLoad x) (h'.noLoad x)
  · exact (List.mem_append.mp hx).elim (h.writes hro x) (h'.writes hro x)

/-- A second call is sent only where the first one has shown the server to lack EVALSHA_RO. -/
theorem EvalShaSent.calls {log' : EvalLog} {r : Reply}
    (h : EvalShaSent options sha keys args readOnly log log' r) :
    ∃ calls, log'.calls = log.calls ++ calls ∧ EvalShaCalls options readOnly calls r ∧
      (calls.length = 1 ∨ calls.length = 2 ∧ log.cleared = false ∧ log'.cleared = true) := by
  cases h with
  | evalSha hlog hro r => exact ⟨_, rfl, .evalSha r, .inl rfl⟩
  | evalShaRo hro hlog r => exact ⟨_, rfl, .evalShaRo hro r, .inl rfl⟩
  | both hro hlog refused r =>
    exact ⟨_, rfl, (EvalShaCalls.evalShaRo hro refused).append (.evalSha r), .inr ⟨rfl, hlog, rfl⟩⟩

/-- All calls carry the same options. They are at most four, with one SCRIPT LOAD, none of them is
an EVALSHA_RO unless the script only reads, and what is returned is the last reply. -/
structure EvalCalls (options : Options) (readOnly : Bool) (calls : List (SentCall × Reply))
    (value : Reply) : Prop where
  pinned : ∀ x ∈ calls, x.1.options = options
  bounded : calls.length ≤ 4
  loads : calls.countP (fun x => x.1.call.loadsScript) ≤ 1
  writes : readOnly = false → ∀ x ∈ calls, x.1.call.readsOnly = false
  last : ∃ call, calls.getLast? = some (call, value)

theorem EvalShaCalls.evalCalls {calls : List (SentCall × Reply)} {r : Reply}
    (h : EvalShaCalls options readOnly calls r) (hlen : calls.length ≤ 4) :
    EvalCalls options readOnly calls r := by
  have hnone : calls.countP (fun x => x.1.call.loadsScript) = 0 :=
    List.countP_eq_zero.mpr fun x hx => by simp [h.noLoad x hx]
  exact ⟨h.pinned, hlen, by omega, h.writes, h.last⟩

/-- The calls around a SCRIPT LOAD. -/
theorem EvalCalls.reloaded (script : String) (loaded : Reply) {calls calls' : List (SentCall × Reply)}
    {r r' : Reply} (h : EvalShaCalls options readOnly calls r)
    (h' : calls' = [] ∧ r' = loaded ∨ EvalShaCalls options readOnly calls' r')
    (hlen : calls.length + calls'.length ≤ 3) :
    EvalCalls options readOnly (calls ++ (⟨loadCall script, options⟩, loaded) :: calls') r' := by
  have hpinned : ∀ x ∈ calls', x.1.options = options := by
    rcases h' with ⟨rfl, -⟩ | h'
    · simp
    · exact h'.pinned
  have hnoLoad : ∀ x ∈ calls', x.1.call.loadsScript = false := by
    rcases h' with ⟨rfl, -⟩ | h'
    · simp
    · exact h'.noLoad
  have hwrites : readOnly = false → ∀ x ∈ calls', x.1.call.readsOnly = false := by
    rcases h' with ⟨rfl, -⟩ | h'
    · simp
    · exact h'.writes
  refine ⟨fun x hx => ?_, ?_, ?_, fun hro x hx => ?_, ?_⟩
  · rcases List.mem_append.mp hx with hx | hx
    · exact h.pinned x hx
    · rcases List.mem_cons.mp hx with rfl | hx
      · rfl
      · exact hpinned x hx
  · simp only [List.length_append, List.length_cons]
    omega
  · have hbefore : calls.countP (fun x => x.1.call.loadsScript) = 0 :=
      List.countP_eq_zero.mpr fun x hx => by simp [h.noLoad x hx]
    have hafter : calls'.countP (fun x => x.1.call.loadsScript) = 0 :=
      List.countP_eq_zero.mpr fun x hx => by simp [hnoLoad x hx]
    have hload := List.countP_cons (p := fun x : SentCall × Reply => x.1.call.loadsScript)
      (a := (⟨loadCall script, options⟩, loaded)) (l := calls')
    rw [List.countP_append, hbefore, hload, hafter]
    split <;> omega
  · rcases List.mem_append.mp hx with hx | hx
    · exact h.writes hro x hx
    · rcases List.mem_cons.mp hx with rfl | hx
      · simp [loadCall, Call.readsOnly]
      · exact hwrites hro x hx
  · rcases h' with ⟨rfl, rfl⟩ | h'
    · exact ⟨_, by simp; rfl⟩
    · obtain ⟨call, hlast⟩ := h'.last
      exact ⟨call, by simp [List.getLast?_cons, hlast]⟩

theorem wp_cached {script : String} : (cached readOnly options sha script keys args).wp EvalLog.ghost
    (fun log value => EvalCalls options readOnly log.calls value) ⟨[], false⟩ := by
  refine (wp_bind _ _).mpr (wp_evalShaCmd fun log r hsent => ?_)
  obtain ⟨calls, hcalls, hfirst, hlen⟩ := hsent.calls
  rw [List.nil_append] at hcalls
  have hdone : EvalCalls options readOnly log.calls r := by
    rw [hcalls]
    exact hfirst.evalCalls (by omega)
  cases r with
  | ok v => exact hdone
  | error e =>
    by_cases hunknown : e.contains "ERR unknown command" = true
    · simp only [afterEvalSha, if_pos hunknown]
      refine fun _ _ => wp_send fun r => ?_
      have hretry := hfirst.append (@EvalShaCalls.evalSha options sha keys args readOnly r)
      have hcount := hretry.evalCalls (by simp only [List.length_append, List.length_singleton]; omega)
      rwa [← hcalls] at hcount
    · by_cases hnoscript : e.contains "NOSCRIPT" = true
      · simp only [afterEvalSha, if_neg hunknown, if_pos hnoscript]
        refine (wp_bind _ _).mpr (wp_send fun loaded => ?_)
        cases loaded with
        | error e' =>
          have hload := EvalCalls.reloaded script (.error e') hfirst
            (.inl ⟨rfl, rfl⟩) (by simp only [List.length_nil]; omega)
          rwa [← hcalls] at hload
        | ok v =>
          refine wp_evalShaCmd fun log' r hsent' => ?_
          obtain ⟨calls', hcalls', hsecond, hlen'⟩ := hsent'.calls
          have hload := EvalCalls.reloaded script (.ok v) hfirst
            (.inr hsecond) (by
              rcases hlen with hlen | ⟨hlen, -, hcleared⟩
              · omega
              · -- the server lacks EVALSHA_RO, so the second command is one call
                rcases hlen' with hlen' | ⟨-, hnot, -⟩
                · omega
                · cases hcleared.symm.trans hnot)
          rw [hcalls', hcalls, List.append_assoc]
          exact hload
      · simp only [afterEvalSha, if_neg hunknown, if_neg hnoscript]
        exact hdone

end Calls

section Runs

variable {sha1 : String → String} {σ : Type} (svc : AsyncService sha1) (srv : ScriptServer σ)
  (readOnly noRetry : Bool) (script : String) (keys : List Key) (args : List Value)

/-- The calls of a run with their replies. -/
def ScriptServer.sent (trace : List (Asked EvalRequest (Shared σ))) : List (SentCall × Reply) :=
  trace.filterMap fun x =>
    match x.request with
    | .send call => some (call, srv.reply call x.state.server)
    | _ => none

theorem foldl_after_calls (trace : List (Asked EvalRequest (Shared σ))) (log : EvalLog) :
    (trace.foldl (EvalLog.ghost.after srv.answer) log).calls = log.calls ++ srv.sent trace := by
  induction trace generalizing log with
  | nil => simp [ScriptServer.sent]
  | cons x trace ih =>
    obtain ⟨q, s⟩ := x
    rw [List.foldl_cons, ih]
    cases q with
    | loadRoSupported | storeRoUnsupported => rfl
    | send call =>
      simp [Ghost.after, EvalLog.ghost, EvalLog.note, ScriptServer.sent, ScriptServer.answer]

def AsyncService.callOptions (noRetry : Bool) (keys : List Key) : Options :=
  if svc.isEvalCacheActive then svc.pinnedOptions noRetry keys else svc.evalOptions noRetry

theorem wp_evalDialogue :
    (svc.evalDialogue readOnly noRetry script keys args).wp EvalLog.ghost
      (fun log value => EvalCalls (svc.callOptions noRetry keys) readOnly log.calls value)
      ⟨[], false⟩ := by
  cases hcache : svc.isEvalCacheActive with
  | false =>
    simp only [AsyncService.evalDialogue, AsyncService.callOptions, hcache, Bool.not_false, if_true,
      Bool.false_eq_true, if_false]
    exact wp_send fun r => ⟨by simp, by simp, by simp [AsyncService.evalMethod, Call.loadsScript],
      by simp [AsyncService.evalMethod, Call.readsOnly], _, rfl⟩
  | true =>
    simp only [AsyncService.evalDialogue, AsyncService.callOptions, hcache, Bool.not_true, if_true,
      Bool.false_eq_true, if_false]
    exact wp_cached

/-- Whatever the server answers, and whatever others do to it between the steps of an
`eval_async`, as long as nobody sets the flag that is only ever cleared. -/
theorem evalDialogue_calls {others : Nat → Shared σ → Shared σ} (hothers : OnlyClear others)
    (s : Shared σ) :
    let out := srv.amid (svc.evalDialogue readOnly noRetry script keys args) others s
    EvalCalls (svc.callOptions noRetry keys) readOnly (srv.sent out.trace) out.value := by
  have hrun := wp_run (EvalLog.sound srv hothers) (fun hc => by cases hc)
    (wp_evalDialogue svc readOnly noRetry script keys args) (s := s)
  have hcalls := hrun.1
  rwa [foldl_after_calls, List.nil_append] at hcalls

end Runs

/-! A server without EVALSHA_RO that has not loaded the script: all four calls are sent. -/

def oldServer : ScriptServer Bool where
  reply c loaded :=
    if c.call.readsOnly then .error ⟨"ERR unknown command 'EVALSHA_RO'"⟩
    else if c.call.loadsScript || loaded then .ok (.integer 1)
    else .error noscript
  next c loaded := loaded || c.call.loadsScript
  runs c loaded := loaded && !c.call.loadsScript

theorem evalDialogue_calls_oldServer :
    let out := oldServer.amid (incrementService.evalDialogue true false "incr" [] []) (fun _ s => s)
      ⟨true, false⟩
    (oldServer.sent out.trace).length = 4 ∧ out.value = .ok (.integer 1) ∧
      EvalCalls (incrementService.callOptions false []) true (oldServer.sent out.trace) out.value :=
  ⟨rfl, rfl, evalDialogue_calls incrementService oldServer true false "incr" [] [] (fun _ _ h => h)
    ⟨true, false⟩⟩

end Redisson
