import Redisson.DialogueTasks
import Redisson.EvalCalls

/-! Any number of `eval_async` calls at once, of any services of the process: they share
EVAL_SHA_RO_SUPPORTED, which each reads before it sends EVALSHA_RO and each may clear. -/

namespace Redisson

open EvalDialogue Dialogue DialogueTasks LabelledRuns

def unknownCommand : Reply → Bool
  | .ok _ => false
  | .error e => e.contains "ERR unknown command"

/-- What is known of a task: whether the flag is cleared, how many EVALSHA_RO it has sent since
then, and whether one of its EVALSHA calls has been refused. -/
structure RoProbe where
  cleared : Bool
  late : Nat
  refused : Bool

namespace RoProbe

def note : RoProbe → (q : EvalRequest) → q.Answer → RoProbe
  | p, .loadRoSupported, _ => p
  | p, .storeRoUnsupported, _ => { p with cleared := true }
  | p, .send c, (r : Reply) =>
    { p with late := p.late + (p.cleared && c.call.readsOnly).toNat
             refused := p.refused || (c.call.evaluates && unknownCommand r) }

def Possible : RoProbe → (q : EvalRequest) → q.Answer → Prop
  | p, .loadRoSupported, (supported : Bool) => supported = !p.cleared
  | _, .storeRoUnsupported, _ | _, .send _, _ => True

def Drift (p p' : RoProbe) : Prop :=
  p'.late = p.late ∧ p'.refused = p.refused ∧ (p.cleared = true → p'.cleared = true)

def Allowed (bound : Nat) : RoProbe → EvalRequest → Prop
  | _, .loadRoSupported => True
  | p, .storeRoUnsupported => p.refused = true
  | p, .send c => c.call.readsOnly = true → p.cleared = true → p.late < bound

/-- The flag is cleared after a refusal only, and while it is cleared at most `bound` calls of
EVALSHA_RO are sent. -/
def contract (bound : Nat) : Contract EvalRequest EvalRequest.Answer RoProbe :=
  ⟨⟨note, Possible⟩, Drift, Allowed bound⟩

variable {bound : Nat} {p p' : RoProbe}

theorem drift_refl (p : RoProbe) : Drift p p := ⟨rfl, rfl, id⟩

theorem drift_trans (a b c : RoProbe) (hab : Drift a b) (hbc : Drift b c) : Drift a c :=
  ⟨hbc.1.trans hab.1, hbc.2.1.trans hab.2.1, hbc.2.2 ∘ hab.2.2⟩

/-- The next read of the flag keeps the task from sending too much. -/
def Ready (bound : Nat) (p : RoProbe) : Prop := p.cleared = true ∨ p.late < bound

theorem Ready.drift (h : Ready bound p) (hp : Drift p p') : Ready bound p' :=
  h.imp hp.2.2 fun hlate => hp.1 ▸ hlate

/-- What an EVALSHA command leaves behind. -/
def AfterReply (bound : Nat) (p : RoProbe) (r : Reply) : Prop :=
  Ready bound p ∧ (unknownCommand r = true → p.refused = true)

theorem AfterReply.drift {r : Reply} (h : AfterReply bound p r) (hp : Drift p p') :
    AfterReply bound p' r :=
  ⟨h.1.drift hp, fun hr => hp.2.1 ▸ h.2 hr⟩

theorem Ready.send {c : SentCall} {r : Reply} (h : Ready bound p) :
    Ready bound (note p (.send c) r) := by
  cases hc : p.cleared with
  | true => exact .inl hc
  | false => exact .inr (by simpa [Ready, note, hc] using h)

theorem AfterReply.send {c : SentCall} {r : Reply} (h : Ready bound p) (hc : c.call.evaluates = true) :
    AfterReply bound (note p (.send c) r) r :=
  ⟨h.send, fun hr => by simp [note, hc, hr]⟩

end RoProbe

section Meets

open RoProbe

variable {bound : Nat} {p : RoProbe} {readOnly : Bool} {options : Options} {sha script : String}
  {keys : List Key} {args : List Value} {call : Call} {post : RoProbe → Reply → Prop}

theorem meets_done (r : Reply) :
    (done r : EvalDialogue).meets (RoProbe.contract bound) (fun _ _ => True) p := fun _ _ => trivial

theorem meets_send (hcall : call.readsOnly = false) (hp : Ready bound p)
    (hpost : ∀ p' r, Ready bound p' → (call.evaluates = true → AfterReply bound p' r) → post p' r) :
    (EvalDialogue.send options call).meets (RoProbe.contract bound) post p := by
  refine fun p₁ hp₁ => ⟨fun hro => by simp [hcall] at hro, fun r _ p₂ hp₂ => ?_⟩
  have hready : Ready bound (note p₁ (.send ⟨call, options⟩) r) := (hp.drift hp₁).send
  exact hpost p₂ r (hready.drift hp₂) fun heval => (AfterReply.send (hp.drift hp₁) heval).drift hp₂

theorem meets_evalSha (hp : Ready bound p) :
    (evalSha options sha keys args).meets (RoProbe.contract bound) (AfterReply bound) p :=
  meets_send rfl hp fun _ _ _ h => h (by simp [AsyncService.evalMethod, Call.evaluates])

/-- After a refusal the flag may be cleared. -/
theorem meets_store {k : Unit → EvalDialogue} (hp : p.refused = true)
    (hk : ∀ p', p'.cleared = true → (k ()).meets (RoProbe.contract bound) post p') :
    meets (RoProbe.contract bound) post (ask .storeRoUnsupported k) p :=
  fun _ hp₁ => ⟨hp₁.2.1.trans hp, fun _ _ => hk _ rfl⟩

theorem meets_load {k : Bool → EvalDialogue} (hp : Ready bound p)
    (hfalse : ∀ p', Ready bound p' → (k false).meets (RoProbe.contract bound) post p')
    (htrue : ∀ p', p'.late < bound → (k true).meets (RoProbe.contract bound) post p') :
    meets (RoProbe.contract bound) post (ask .loadRoSupported k) p := by
  refine fun p₁ hp₁ => ⟨trivial, fun supported hsupported => ?_⟩
  have hready := hp.drift hp₁
  cases supported with
  | false => exact hfalse p₁ hready
  | true =>
    have hopen : p₁.cleared = false := by
      have hnot : true = !p₁.cleared := hsupported
      simpa using hnot.symm
    exact htrue p₁ (hready.resolve_left (by simp [hopen]))

theorem meets_evalShaRo (hp : Ready bound p) :
    (evalShaRo options sha keys args).meets (RoProbe.contract bound) (AfterReply bound) p := by
  refine meets_load hp (fun p' hp' => meets_evalSha hp') fun p₁ hlate => ?_
  rw [if_pos rfl]
  -- the flag may be cleared between its last read and this call
  refine fun p₂ hp₂ => ⟨fun _ _ => hp₂.1 ▸ hlate, fun r _ => ?_⟩
  have hready : Ready bound p₂ := .inr (hp₂.1 ▸ hlate)
  have hlearned := @AfterReply.send bound p₂
    ⟨.custom "EVALSHA_RO" .firstKey (RedisCommand.scriptArgs sha keys args), options⟩ r hready rfl
  show (afterEvalShaRo options sha keys args r).meets (RoProbe.contract bound) (AfterReply bound) _
  cases r with
  | ok v => exact fun p₃ hp₃ => hlearned.drift hp₃
  | error e =>
    by_cases hunknown : e.contains "ERR unknown command" = true
    · simp only [afterEvalShaRo, if_pos hunknown]
      exact meets_store (hlearned.2 hunknown) fun p' hp' => meets_evalSha (.inl hp')
    · simp only [afterEvalShaRo, if_neg hunknown]
      exact fun p₃ hp₃ => hlearned.drift hp₃

theorem meets_evalShaCmd (hp : Ready bound p) :
    (evalShaCmd readOnly options sha keys args).meets (RoProbe.contract bound) (AfterReply bound)
      p := by
  cases readOnly with
  | false => exact meets_evalSha hp
  | true =>
    refine meets_load hp (fun p' hp' => meets_evalSha hp') fun p' hlate => ?_
    exact meets_evalShaRo (.inr hlate)

theorem meets_cached (hp : Ready bound p) :
    (cached readOnly options sha script keys args).meets (RoProbe.contract bound)
      (fun _ _ => True) p := by
  refine meets_bind drift_refl (meets_imp (fun p₁ r hr => ?_) (meets_evalShaCmd hp))
  cases r with
  | ok v => exact meets_done _
  | error e =>
    by_cases hunknown : e.contains "ERR unknown command" = true
    · simp only [afterEvalSha, if_pos hunknown]
      refine meets_store (hr.2 hunknown) fun p' hp' => ?_
      exact meets_imp (fun _ _ _ => trivial) (meets_evalSha (.inl hp'))
    · by_cases hnoscript : e.contains "NOSCRIPT" = true
      · simp only [afterEvalSha, if_neg hunknown, if_pos hnoscript]
        refine meets_bind drift_refl (meets_send rfl hr.1 fun p₂ loaded hp₂ _ => ?_)
        cases loaded with
        | ok v => exact meets_imp (fun _ _ _ => trivial) (meets_evalShaCmd hp₂)
        | error e' => exact meets_done _
      · simp only [afterEvalSha, if_neg hunknown, if_neg hnoscript]
        exact meets_done _

end Meets

/-- One call of `eval_async`. -/
structure EvalCall (sha1 : String → String) where
  svc : AsyncService sha1
  readOnly : Bool
  noRetry : Bool
  script : String
  keys : List Key
  args : List Value

def EvalCall.dialogue {sha1 : String → String} (c : EvalCall sha1) : EvalDialogue :=
  c.svc.evalDialogue c.readOnly c.noRetry c.script c.keys c.args

theorem EvalCall.meets {sha1 : String → String} (c : EvalCall sha1) {bound : Nat} {p : RoProbe}
    (hp : RoProbe.Ready bound p) :
    c.dialogue.meets (RoProbe.contract bound) (fun _ _ => True) p := by
  cases hcache : c.svc.isEvalCacheActive with
  | false =>
    simp only [dialogue, AsyncService.evalDialogue, hcache, Bool.not_false, if_true]
    exact meets_send rfl hp fun _ _ _ _ => trivial
  | true =>
    simp only [dialogue, AsyncService.evalDialogue, hcache, Bool.not_true, Bool.false_eq_true, if_false]
    exact meets_cached hp

section Runs

variable {sha1 : String → String} {σ ε : Type} (srv : ScriptServer σ) (effect : ε → σ → σ)

def ScriptServer.refuses (x : Asked EvalRequest (Shared σ)) : Bool :=
  match x.request with
  | .send c => c.call.evaluates && unknownCommand (srv.reply c x.state.server)
  | _ => false

def sendsEvalShaRo (x : Asked EvalRequest (Shared σ)) : Bool :=
  match x.request with
  | .send c => c.call.readsOnly
  | _ => false

/-- Other clients change what is on the server, not the flag of this process. -/
def Shared.outside (e : ε) (s : Shared σ) : Shared σ := { s with server := effect e s.server }

abbrev evalTasksStep := DialogueTasks.step (α := Reply) srv.answer (Shared.outside effect)

/-- How what is known of a task fits its requests `xs` since `first` was known of it. -/
structure RoProbe.Fits (bound : Nat) (first p : RoProbe) (xs : List (Asked EvalRequest (Shared σ)))
    (s : Shared σ) : Prop where
  flag : p.cleared = !s.evalShaRoSupported
  late : p.late ≤ bound
  refused : p.refused = true → first.refused = true ∨ ∃ x ∈ xs, srv.refuses x = true
  since : first.cleared = true →
    p.cleared = true ∧ p.late = first.late + xs.countP sendsEvalShaRo

variable {srv effect} {bound : Nat} {first p : RoProbe}
  {xs : List (Asked EvalRequest (Shared σ))} {s : Shared σ}

namespace RoProbe.Fits

theorem send (h : Fits srv bound first p xs s) {c : SentCall} (hc : Allowed bound p (.send c)) :
    Fits srv bound first (note p (.send c) (srv.reply c s.server)) (xs ++ [⟨.send c, s⟩])
      (srv.after c s) := by
  refine ⟨h.flag, ?_, fun hr => ?_, fun hfirst => ⟨(h.since hfirst).1, ?_⟩⟩
  · cases hlate : p.cleared && c.call.readsOnly with
    | false => simpa [note, hlate] using h.late
    | true =>
      simp only [Bool.and_eq_true] at hlate
      have hlt := hc hlate.2 hlate.1
      simp only [note, hlate, Bool.and_self, Bool.toNat_true]
      omega
  · simp only [note, Bool.or_eq_true] at hr
    rcases hr with hr | hr
    · refine (h.refused hr).imp_right fun ⟨x, hx, hrefuses⟩ => ⟨x, ?_, hrefuses⟩
      exact List.mem_append_left _ hx
    · exact .inr ⟨_, List.mem_append_right _ (List.mem_singleton_self _), hr⟩
  · obtain ⟨hcleared, hcount⟩ := h.since hfirst
    have hone : [(⟨.send c, s⟩ : Asked EvalRequest (Shared σ))].countP sendsEvalShaRo =
        c.call.readsOnly.toNat := by
      cases hro : c.call.readsOnly with
      | false => simp [sendsEvalShaRo, hro]
      | true => simp [sendsEvalShaRo, hro]
    simp only [note, hcleared, Bool.true_and, List.countP_append, hone, hcount, Nat.add_assoc]

theorem quiet (h : Fits srv bound first p xs s) {q : EvalRequest} {p' : RoProbe} {s' : Shared σ}
    (hq : sendsEvalShaRo (⟨q, s⟩ : Asked EvalRequest (Shared σ)) = false) (hp : Drift p p')
    (hflag : p'.cleared = !s'.evalShaRoSupported) : Fits srv bound first p' (xs ++ [⟨q, s⟩]) s' := by
  refine ⟨hflag, hp.1 ▸ h.late, fun hr => ?_, fun hfirst => ?_⟩
  · refine (h.refused (hp.2.1 ▸ hr)).imp_right fun ⟨x, hx, hrefuses⟩ => ⟨x, ?_, hrefuses⟩
    exact List.mem_append_left _ hx
  · obtain ⟨hcleared, hcount⟩ := h.since hfirst
    exact ⟨hp.2.2 hcleared, by simp [hp.1, hcount, List.countP_append, hq]⟩

/-- The flag is cleared and never set. -/
theorem drift (h : Fits srv bound first p xs s) {s' : Shared σ}
    (hs : s.evalShaRoSupported = false → s'.evalShaRoSupported = false) :
    ∃ p', Drift p p' ∧ Fits srv bound first p' xs s' := by
  have hcleared : p.cleared = true → (!s'.evalShaRoSupported) = true := fun hp => by
    simpa using hs (by simpa [h.flag] using hp)
  refine ⟨{ p with cleared := !s'.evalShaRoSupported }, ⟨rfl, rfl, hcleared⟩, rfl, h.late, h.refused,
    fun hfirst => ?_⟩
  obtain ⟨hp, hcount⟩ := h.since hfirst
  exact ⟨hcleared hp, hcount⟩

end RoProbe.Fits

theorem RoProbe.kept : Kept (RoProbe.contract bound) srv.answer (Shared.outside effect)
    (RoProbe.Fits srv bound first) := by
  refine ⟨drift_trans, drift_refl, fun p xs s q h => ?_, fun p xs s q h hq => ?_,
    fun p xs s q h => h.drift fun hs => ?_, fun p xs s e h => h.drift id⟩
  · cases q with
    | loadRoSupported => exact (by simp [h.flag] : s.evalShaRoSupported = !p.cleared)
    | storeRoUnsupported | send c => trivial
  · cases q with
    | loadRoSupported => exact h.quiet rfl (drift_refl p) h.flag
    | storeRoUnsupported => exact h.quiet rfl ⟨rfl, rfl, fun _ => rfl⟩ rfl
    | send c => exact h.send hq
  · cases q with
    | loadRoSupported | send c => exact hs
    | storeRoUnsupported => rfl

variable {calls : Nat → EvalCall sha1} {es : List (Move ε)} {server : σ}
  {m m' : Tasks EvalRequest EvalRequest.Answer Reply (Shared σ)}

def evalTasks (calls : Nat → EvalCall sha1) (server : σ) :
    Tasks EvalRequest EvalRequest.Answer Reply (Shared σ) :=
  .start (fun t => (calls t).dialogue) ⟨true, server⟩

variable (srv) in
/-- What every task of a run keeps to. -/
def KeepsContract (t : Nat) (m : Tasks EvalRequest EvalRequest.Answer Reply (Shared σ)) : Prop :=
  Meets (RoProbe.contract 1) (RoProbe.Fits srv 1 ⟨false, 0, false⟩) (fun _ _ => True) [] t m

theorem keepsContract_start (t : Nat) : KeepsContract srv t (evalTasks calls server) :=
  ⟨⟨false, 0, false⟩, [], rfl, (calls t).meets (.inr Nat.zero_lt_one), rfl, Nat.zero_le 1, nofun, nofun⟩

theorem keepsContract_of_run (h : run (evalTasksStep srv effect) (evalTasks calls server) es = some m)
    (t : Nat) : KeepsContract srv t m :=
  run_invariant (fun _ _ _ hm hs => hm.step RoProbe.kept hs) (keepsContract_start t) h

variable (srv) in
def ClearedByRefusal (m : Tasks EvalRequest EvalRequest.Answer Reply (Shared σ)) : Prop :=
  m.state.evalShaRoSupported = false → ∃ t, ∃ x ∈ m.asked t, srv.refuses x = true

theorem ClearedByRefusal.step {x : Move ε} (hm : ∀ t, KeepsContract srv t m)
    (h : ClearedByRefusal srv m) (hs : evalTasksStep srv effect m x = some m') :
    ClearedByRefusal srv m' := by
  intro hcleared
  have hbefore : ∃ t, ∃ x ∈ m.asked t, srv.refuses x = true := by
    cases Step.of_step hs with
    | @act t q k hk =>
      cases q with
      | loadRoSupported | send c => exact h hcleared
      | storeRoUnsupported =>
        -- the flag is cleared here, which the contract of the task allows after a refusal only
        obtain ⟨p, xs, hasked, hmeets, hfits⟩ := hm t
        rw [hk] at hmeets
        have hrefused := (hfits.refused (hmeets p (RoProbe.drift_refl p)).1).resolve_left nofun
        exact ⟨t, by rwa [hasked]⟩
    | outside e => exact h hcleared
  obtain ⟨t, y, hy, hrefuses⟩ := hbefore
  exact ⟨t, y, (Step.of_step hs).mem_asked hy, hrefuses⟩

theorem clearedByRefusal_of_run
    (h : run (evalTasksStep srv effect) (evalTasks calls server) es = some m) :
    ClearedByRefusal srv m := by
  have hinv : (∀ t, KeepsContract srv t m) ∧ ClearedByRefusal srv m :=
    @run_invariant _ _ (evalTasksStep srv effect)
      (fun n => (∀ t, KeepsContract srv t n) ∧ ClearedByRefusal srv n) _ _ _
      (fun n x n' hn hs => ⟨fun t => (hn.1 t).step RoProbe.kept hs, hn.2.step hn.1 hs⟩)
      ⟨keepsContract_start, nofun⟩ h
  exact hinv.2

/-- However the tasks and the other clients interleave: the flag is cleared only after a server has
refused a call, from then on a task under way sends at most one more EVALSHA_RO, and a task that
begins later none. A call counts as refused when its error text has `ERR unknown command` in it,
which the error of a script may have too. -/
theorem evalTasks_probing (h : run (evalTasksStep srv effect) (evalTasks calls server) es = some m)
    (hcleared : m.state.evalShaRoSupported = false) :
    (∃ t, ∃ x ∈ m.asked t, srv.refuses x = true) ∧
      ∀ es' m', run (evalTasksStep srv effect) m es' = some m' → ∀ t, ∃ later,
        m'.asked t = m.asked t ++ later ∧ later.countP sendsEvalShaRo ≤ 1 ∧
          (m.asked t = [] → later.countP sendsEvalShaRo = 0) := by
  refine ⟨clearedByRefusal_of_run h hcleared, fun es' m' h' t => ?_⟩
  by_cases hbegun : m.asked t = []
  · have hrest := rest_of_unasked h hbegun
    have hmeets : (m.rest t).meets (RoProbe.contract 0) (fun _ _ => True) ⟨true, 0, false⟩ := by
      rw [hrest]
      exact (calls t).meets (.inl rfl)
    obtain ⟨p, later, hasked, -, hfits⟩ := Meets.of_run
      (R := RoProbe.Fits srv 0 ⟨true, 0, false⟩) RoProbe.kept hmeets
      ⟨by simp [hcleared], Nat.zero_le 0, nofun, fun _ => ⟨rfl, rfl⟩⟩ h'
    have hcount := (hfits.since rfl).2
    have hlate := hfits.late
    exact ⟨later, hasked, by omega, fun _ => by omega⟩
  · obtain ⟨p, xs, -, hmeets, hfits⟩ := keepsContract_of_run h t
    have hp : p.cleared = true := by simp [hfits.flag, hcleared]
    obtain ⟨p', later, hasked, -, hfits'⟩ := Meets.of_run (R := RoProbe.Fits srv 1 p)
      RoProbe.kept hmeets
      ⟨hfits.flag, hfits.late, fun hr => .inl hr, fun _ => ⟨hp, rfl⟩⟩ h'
    have hcount := (hfits'.since hp).2
    have hlate := hfits'.late
    exact ⟨later, hasked, by omega, fun hnone => absurd hnone hbegun⟩

end Runs

/-! Two reads find the flag set. The first is refused and clears it before the second sends. -/

def readCalls : Nat → EvalCall fun script => script :=
  fun _ => ⟨incrementService, true, false, "incr", [], []⟩

def untouched (_ : Unit) (loaded : Bool) : Bool := loaded

theorem evalTasks_probing_twoReads : ∃ m m',
    run (evalTasksStep oldServer untouched) (evalTasks readCalls true)
      [.act 0, .act 0, .act 1, .act 1, .act 0, .act 0] = some m ∧
    run (evalTasksStep oldServer untouched) m [.act 1] = some m' ∧
    (m'.asked 1).countP sendsEvalShaRo = 1 ∧
    (∃ t, ∃ x ∈ m.asked t, oldServer.refuses x = true) ∧
    ∃ later, m'.asked 1 = m.asked 1 ++ later ∧ later.countP sendsEvalShaRo ≤ 1 :=
  have h := @evalTasks_probing (fun script => script) _ _ oldServer untouched readCalls
    [.act 0, .act 0, .act 1, .act 1, .act 0, .act 0] true _ rfl rfl
  have ⟨later, hasked, hlater, _⟩ := h.2 [.act 1] _ rfl 1
  ⟨_, _, rfl, rfl, rfl, h.1, later, hasked, hlater⟩

end Redisson
