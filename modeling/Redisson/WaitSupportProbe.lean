import Redisson.CommandAsyncService
import Redisson.SingleFlight

/-! `wait_support` under any number of concurrent `synced_eval` calls. A caller that finds it
empty keeps the lock while it sends WAIT and WAITAOF, and may be cancelled at each await. -/

namespace Redisson

open LabelledRuns

/-- `probe_command`, once its call is answered. -/
def probed : Reply → Except Error Bool
  | .ok _ => .ok true
  | .error e => if e.contains "ERR unknown command" then .ok false else .error e

def waitProbe : Call := .custom "WAIT" .firstKey [.integer 0, .integer 0]

def waitAofProbe : Call := .custom "WAITAOF" .firstKey [.integer 0, .integer 0, .integer 0]

/-- Where a caller stands between `wait_support.lock()` and the clone of the value. -/
inductive Prober
  | idle
  | probingWait
  | probingWaitAof (wait : Bool)
  | got (support : WaitSupport)
  | failed (e : Error)
  | cancelled

/-- The cell and its lock, the probing calls sent so far with their callers, and how many
probes an error or a cancellation has ended. -/
structure ProbeState where
  waitSupport : Option WaitSupport
  guard : Option Nat
  sent : List (Nat × Call)
  lost : Nat
  probers : Nat → Prober

inductive ProbeEvent
  | lock (c : Nat)
  | answer (c : Nat) (r : Reply)
  | cancel (c : Nat)

namespace ProbeState

def new : ProbeState := ⟨none, none, [], 0, fun _ => .idle⟩

def set (s : ProbeState) (c : Nat) (x : Prober) : ProbeState :=
  { s with probers := Function.update s.probers c x }

def send (s : ProbeState) (c : Nat) (call : Call) : ProbeState :=
  { s with sent := s.sent ++ [(c, call)] }

def lose (s : ProbeState) (c : Nat) (x : Prober) : ProbeState :=
  { s.set c x with guard := none, lost := s.lost + 1 }

end ProbeState

def probeStep (s : ProbeState) : ProbeEvent → Option ProbeState
  | .lock c =>
    match s.probers c, s.guard with
    | .idle, none =>
      match s.waitSupport with
      | some support => some (s.set c (.got support))
      | none => some { (s.set c .probingWait).send c waitProbe with guard := some c }
    | _, _ => none
  | .answer c r =>
    match s.probers c, probed r with
    | .probingWait, .ok wait => some ((s.set c (.probingWaitAof wait)).send c waitAofProbe)
    | .probingWaitAof wait, .ok waitAof =>
      some { s.set c (.got ⟨wait, waitAof⟩) with waitSupport := some ⟨wait, waitAof⟩, guard := none }
    | .probingWait, .error e | .probingWaitAof _, .error e => some (s.lose c (.failed e))
    | _, _ => none
  | .cancel c =>
    match s.probers c with
    | .idle => some (s.set c .cancelled)
    | .probingWait | .probingWaitAof _ => some (s.lose c .cancelled)
    | _ => none

section Alone

variable {sha1 : String → String} (svc : AsyncService sha1)

theorem probeCommand_eq (options : Options) (name : String) (args : List Value) (w : World sha1) :
    svc.probeCommand options name args w =
      (probed (svc.send options (.custom name .firstKey args) w).1,
        (svc.send options (.custom name .firstKey args) w).2) := by
  unfold AsyncService.probeCommand probed
  cases svc.send options (.custom name .firstKey args) w with
  | mk reply w' =>
    cases reply with
    | ok v => rfl
    | error e =>
      by_cases he : e.contains "ERR unknown command" = true <;> simp [he]

def Prober.of : Except Error WaitSupport → Prober
  | .ok support => .got support
  | .error e => .failed e

/-- Left alone, a caller takes the steps of `probe_wait_support`. -/
theorem probeWaitSupport_alone (options : Options) (w : World sha1) :
    ∃ es s, run probeStep { ProbeState.new with waitSupport := w.waitSupport } es = some s ∧
      s.probers 0 = .of (svc.probeWaitSupport options w).1 ∧
      s.waitSupport = (svc.probeWaitSupport options w).2.waitSupport ∧
      (svc.probeWaitSupport options w).2.sent = w.sent ++ s.sent.map fun x => ⟨x.2, options⟩ := by
  cases hw : w.waitSupport with
  | some support =>
    exact ⟨[.lock 0], _, rfl, by simp [AsyncService.probeWaitSupport, hw, Prober.of, ProbeState.set],
      by simp [AsyncService.probeWaitSupport, hw, ProbeState.set],
      by simp [AsyncService.probeWaitSupport, hw, ProbeState.set, ProbeState.new]⟩
  | none =>
    let first := svc.send options waitProbe w
    let second := svc.send options waitAofProbe first.2
    have hfirst : svc.probeCommand options "WAIT" [.integer 0, .integer 0] w =
        (probed first.1, first.2) := probeCommand_eq svc options _ _ w
    have hsecond : svc.probeCommand options "WAITAOF" [.integer 0, .integer 0, .integer 0] first.2 =
        (probed second.1, second.2) := probeCommand_eq svc options _ _ first.2
    have hsent : first.2.sent = w.sent ++ [⟨waitProbe, options⟩] ∧
        second.2.sent = w.sent ++ [⟨waitProbe, options⟩, ⟨waitAofProbe, options⟩] := by
      simp [first, second, AsyncService.send]
    have hempty : first.2.waitSupport = none ∧ second.2.waitSupport = none := ⟨hw, hw⟩
    simp only [AsyncService.probeWaitSupport, hw, hfirst]
    cases hp : probed first.1 with
    | error e =>
      refine ⟨[.lock 0, .answer 0 first.1], _, by simp only [run, probeStep, hp]; rfl, ?_⟩
      simp [Prober.of, ProbeState.lose, ProbeState.set, ProbeState.send, ProbeState.new, hempty, hsent]
    | ok wait =>
      simp only [hsecond]
      cases hp' : probed second.1 with
      | error e =>
        refine ⟨[.lock 0, .answer 0 first.1, .answer 0 second.1], _, by
          simp only [run, probeStep, hp, hp', Option.bind_some, ProbeState.set, ProbeState.send,
            ProbeState.new, Function.update_self]
          rfl, ?_⟩
        simp [Prober.of, ProbeState.lose, ProbeState.set, hempty, hsent]
      | ok waitAof =>
        refine ⟨[.lock 0, .answer 0 first.1, .answer 0 second.1], _, by
          simp only [run, probeStep, hp, hp', Option.bind_some, ProbeState.set, ProbeState.send,
            ProbeState.new, Function.update_self]
          rfl, ?_⟩
        simp [Prober.of, hsent]

end Alone

/-- The probe of a caller as a computation of a shared value. -/
def Prober.client : Prober → SingleFlight.Client WaitSupport Error
  | .idle => .idle
  | .probingWait | .probingWaitAof _ => .computing
  | .got support => .got support
  | .failed e => .failed e
  | .cancelled => .gone

inductive ProbeStep (s : ProbeState) : ProbeEvent → ProbeState → Prop
  | share {c : Nat} {support : WaitSupport} (hc : s.probers c = .idle) (hg : s.guard = none)
      (hw : s.waitSupport = some support) : ProbeStep s (.lock c) (s.set c (.got support))
  | probe {c : Nat} (hc : s.probers c = .idle) (hg : s.guard = none) (hw : s.waitSupport = none) :
      ProbeStep s (.lock c) ({ (s.set c .probingWait).send c waitProbe with guard := some c })
  | probeAof {c : Nat} {r : Reply} {wait : Bool} (hc : s.probers c = .probingWait)
      (hr : probed r = .ok wait) :
      ProbeStep s (.answer c r) ((s.set c (.probingWaitAof wait)).send c waitAofProbe)
  | learn {c : Nat} {r : Reply} {wait waitAof : Bool} (hc : s.probers c = .probingWaitAof wait)
      (hr : probed r = .ok waitAof) : ProbeStep s (.answer c r)
        ({ s.set c (.got ⟨wait, waitAof⟩) with waitSupport := some ⟨wait, waitAof⟩, guard := none })
  | fail {c : Nat} {r : Reply} {e : Error} (hc : (s.probers c).client = .computing)
      (hr : probed r = .error e) : ProbeStep s (.answer c r) (s.lose c (.failed e))
  | leave {c : Nat} (hc : s.probers c = .idle) : ProbeStep s (.cancel c) (s.set c .cancelled)
  | abandon {c : Nat} (hc : (s.probers c).client = .computing) :
      ProbeStep s (.cancel c) (s.lose c .cancelled)

theorem ProbeStep.of_step {s s' : ProbeState} {e : ProbeEvent} (h : probeStep s e = some s') :
    ProbeStep s e s' := by
  cases e with
  | lock c =>
    simp only [probeStep] at h
    split at h
    · next hc hg =>
      split at h
      · next support hw => cases h; exact .share hc hg hw
      · next hw => cases h; exact .probe hc hg hw
    · cases h
  | answer c r =>
    simp only [probeStep] at h
    split at h
    · next hc hr => cases h; exact .probeAof hc hr
    · next hc hr => cases h; exact .learn hc hr
    · next hc hr => cases h; exact .fail (by rw [hc]; rfl) hr
    · next hc hr => cases h; exact .fail (by rw [hc]; rfl) hr
    · cases h
  | cancel c =>
    simp only [probeStep] at h
    split at h
    · next hc => cases h; exact .leave hc
    · next hc => cases h; exact .abandon (by rw [hc]; rfl)
    · next hc => cases h; exact .abandon (by rw [hc]; rfl)
    · cases h

/-- `t` computes the support in one piece where `s` sends two calls. -/
structure ProbeState.Simulates (s : ProbeState) (t : SingleFlight.State WaitSupport Error) : Prop where
  invariant : SingleFlight.Invariant t
  cell : t.cell = s.waitSupport
  lock : t.lock = s.guard
  lost : t.lost = s.lost
  clients : t.clients = fun c => (s.probers c).client
  sent : s.sent.length ≤ 2 * t.started
  owed : ∀ c, s.probers c = .probingWait → s.sent.length + 1 ≤ 2 * t.started

namespace ProbeState.Simulates

variable {s s' : ProbeState} {t t' : SingleFlight.State WaitSupport Error} {c : Nat} {x : Prober}

theorem new : Simulates .new .new :=
  ⟨.new, rfl, rfl, rfl, rfl, Nat.le_refl 0, fun c h => by simp [ProbeState.new] at h⟩

theorem clients_update (h : Simulates s t) :
    Function.update t.clients c x.client = fun d => (Function.update s.probers c x d).client := by
  funext d
  by_cases hd : d = c
  · simp [hd]
  · simp [hd, h.clients]

theorem client (h : Simulates s t) (c : Nat) : t.clients c = (s.probers c).client := by
  rw [h.clients]

/-- A step that sends nothing and does not leave its caller before WAITAOF. -/
theorem quiet (h : Simulates s t) {e : SingleFlight.Event WaitSupport Error}
    (hstep : SingleFlight.step t e = some t') (hx : x ≠ .probingWait)
    (hprobers : s'.probers = Function.update s.probers c x)
    (hclients : t'.clients = Function.update t.clients c x.client) (hsent : s'.sent = s.sent)
    (hstarted : t'.started = t.started) (hcell : t'.cell = s'.waitSupport)
    (hlock : t'.lock = s'.guard) (hlost : t'.lost = s'.lost) :
    ∃ es' t', run SingleFlight.step t es' = some t' ∧ Simulates s' t' := by
  refine ⟨[e], t', by simp [run, hstep], h.invariant.step hstep, hcell, hlock, hlost, ?_, ?_, ?_⟩
  · rw [hclients, hprobers, h.clients_update]
  · rw [hsent, hstarted]
    exact h.sent
  · intro d hd
    rw [hsent, hstarted]
    refine h.owed d ?_
    by_cases hdc : d = c
    · rw [hprobers, hdc, Function.update_self] at hd
      exact absurd hd hx
    · rwa [hprobers, Function.update_of_ne hdc] at hd

theorem step {e : ProbeEvent} (h : Simulates s t) (hs : probeStep s e = some s') :
    ∃ es' t', run SingleFlight.step t es' = some t' ∧ Simulates s' t' := by
  cases ProbeStep.of_step hs with
  | @share c support hc hg hw =>
    have hstep : SingleFlight.step t (.acquire c) = some (t.set c (.got support)) := by
      simp only [SingleFlight.step, h.client, hc, h.lock, hg, h.cell, hw, Prober.client]
    exact h.quiet (x := .got support) hstep (by simp) rfl rfl rfl rfl h.cell h.lock h.lost
  | @probe c hc hg hw =>
    have hstep : SingleFlight.step t (.acquire c) = some (t.compute c) := by
      simp only [SingleFlight.step, h.client, hc, h.lock, hg, h.cell, hw, Prober.client]
    have hsent := h.sent
    refine ⟨[.acquire c], t.compute c, by simp [run, hstep], h.invariant.step hstep, h.cell, rfl, h.lost,
      h.clients_update (x := .probingWait), ?_, fun d _ => ?_⟩
    · simp only [ProbeState.send, ProbeState.set, SingleFlight.State.compute,
        SingleFlight.State.set, List.length_append, List.length_singleton]
      omega
    · simp only [ProbeState.send, ProbeState.set, SingleFlight.State.compute,
        SingleFlight.State.set, List.length_append, List.length_singleton]
      omega
  | @probeAof c r wait hc hr =>
    have howed := h.owed c hc
    have hcomp : t.clients c = .computing := by rw [h.client, hc]; rfl
    refine ⟨[], t, rfl, h.invariant, h.cell, h.lock, h.lost, ?_, ?_, fun d hd => ?_⟩
    · have hupdate := h.clients_update (c := c) (x := .probingWaitAof wait)
      rwa [Prober.client, ← hcomp, Function.update_eq_self] at hupdate
    · simpa [ProbeState.send, ProbeState.set] using howed
    · -- the lock is held by one caller, and that one no longer waits for WAIT
      exfalso
      by_cases hdc : d = c
      · simp [ProbeState.send, ProbeState.set, hdc] at hd
      · have hd' : t.clients d = .computing := by
          rw [h.client]
          simp only [ProbeState.send, ProbeState.set, Function.update_of_ne hdc] at hd
          rw [hd]
          rfl
        rw [h.invariant.holder] at hcomp hd'
        exact hdc (Option.some.inj (hd'.symm.trans hcomp))
  | @learn c r wait waitAof hc hr =>
    have hstep : SingleFlight.step t (.finish c (.ok ⟨wait, waitAof⟩)) =
        some (t.store c ⟨wait, waitAof⟩) := by
      simp only [SingleFlight.step, h.client, hc, Prober.client]
    exact h.quiet (x := .got ⟨wait, waitAof⟩) hstep (by simp) rfl rfl rfl rfl rfl rfl h.lost
  | @fail c r e hc hr =>
    have hstep : SingleFlight.step t (.finish c (.error e)) = some (t.lose c (.failed e)) := by
      simp only [SingleFlight.step, h.client, hc]
    exact h.quiet (x := .failed e) hstep (by simp) rfl rfl rfl rfl h.cell rfl
      (congrArg (· + 1) h.lost)
  | @leave c hc =>
    have hstep : SingleFlight.step t (.leave c) = some (t.set c .gone) := by
      simp only [SingleFlight.step, h.client, hc, Prober.client]
    exact h.quiet (x := .cancelled) hstep (by simp) rfl rfl rfl rfl h.cell h.lock h.lost
  | @abandon c hc =>
    have hstep : SingleFlight.step t (.leave c) = some (t.lose c .gone) := by
      simp only [SingleFlight.step, h.client, hc]
    exact h.quiet (x := .cancelled) hstep (by simp) rfl rfl rfl rfl h.cell rfl
      (congrArg (· + 1) h.lost)

theorem of_run {es : List ProbeEvent} (h : run probeStep .new es = some s) :
    ∃ es' t, run SingleFlight.step .new es' = some t ∧ Simulates s t :=
  run_simulates (fun _ _ _ _ hR hs => hR.step hs) new h

end ProbeState.Simulates

section Runs

variable {s s' t : ProbeState} {es : List ProbeEvent}

/-- The call that a caller has sent last. -/
def ProbeState.lastCall (s : ProbeState) (c : Nat) : Option Call :=
  (s.sent.filter fun x => x.1 == c).getLast?.map Prod.snd

theorem ProbeState.lastCall_send {c d : Nat} {call : Call} (h : s'.sent = s.sent ++ [(c, call)]) :
    s'.lastCall d = if d = c then some call else s.lastCall d := by
  unfold lastCall
  rw [h, List.filter_append]
  by_cases hd : d = c
  · simp [hd]
  · have hne : (c == d) = false := by simpa using Ne.symm hd
    simp [hd, hne]

/-- In the run over `es` the caller was given `r` in answer to `call`, its last one then. -/
def RepliedTo (es : List ProbeEvent) (c : Nat) (call : Call) (r : Reply) : Prop :=
  ∃ before after m, es = before ++ .answer c r :: after ∧ run probeStep .new before = some m ∧
    m.lastCall c = some call

theorem RepliedTo.append {c : Nat} {call : Call} {r : Reply} (h : RepliedTo es c call r)
    (es' : List ProbeEvent) : RepliedTo (es ++ es') c call r := by
  obtain ⟨before, after, m, rfl, hm, hcall⟩ := h
  exact ⟨before, after ++ es', m, by simp, hm, hcall⟩

/-- What each caller waits for, and what is known of the server, and by whose two calls. -/
structure Learned (Seen : Nat → Call → Reply → Prop) (s : ProbeState) : Prop where
  asked : ∀ c, s.probers c = .probingWait → s.lastCall c = some waitProbe
  askedAof : ∀ c wait, s.probers c = .probingWaitAof wait → s.lastCall c = some waitAofProbe
  wait : ∀ c wait, s.probers c = .probingWaitAof wait →
    ∃ r, Seen c waitProbe r ∧ probed r = .ok wait
  support : ∀ v, s.waitSupport = some v → ∃ c r r', Seen c waitProbe r ∧
    Seen c waitAofProbe r' ∧ probed r = .ok v.wait ∧ probed r' = .ok v.waitAof

variable {Seen Seen' : Nat → Call → Reply → Prop}

theorem Learned.mono (h : Learned Seen s) (hs : ∀ c call r, Seen c call r → Seen' c call r) :
    Learned Seen' s where
  asked := h.asked
  askedAof := h.askedAof
  wait c wait hc := by
    obtain ⟨r, hr, hwait⟩ := h.wait c wait hc
    exact ⟨r, hs _ _ _ hr, hwait⟩
  support v hv := by
    obtain ⟨c, r, r', hr, hr', hwait⟩ := h.support v hv
    exact ⟨c, r, r', hs _ _ _ hr, hs _ _ _ hr', hwait⟩

/-- One caller moves on and has sent what it now waits for. -/
theorem Learned.update {c : Nat} {x : Prober} (h : Learned Seen s)
    (hp : s'.probers = Function.update s.probers c x) (hw : s'.waitSupport = s.waitSupport)
    (hother : ∀ d, d ≠ c → s'.lastCall d = s.lastCall d)
    (hask : x = .probingWait → s'.lastCall c = some waitProbe)
    (hwait : ∀ wait, x = .probingWaitAof wait → s'.lastCall c = some waitAofProbe ∧
      ∃ r, Seen c waitProbe r ∧ probed r = .ok wait) : Learned Seen s' := by
  have hcases : ∀ {d : Nat} {y : Prober}, s'.probers d = y → d = c ∧ x = y ∨
      d ≠ c ∧ s.probers d = y := by
    intro d y hd
    by_cases hdc : d = c
    · rw [hp, hdc, Function.update_self] at hd
      exact .inl ⟨hdc, hd⟩
    · rw [hp, Function.update_of_ne hdc] at hd
      exact .inr ⟨hdc, hd⟩
  refine ⟨fun d hd => ?_, fun d wait hd => ?_, fun d wait hd => ?_, fun v hv => h.support v (hw ▸ hv)⟩
  · rcases hcases hd with ⟨rfl, hx⟩ | ⟨hdc, hd⟩
    · exact hask hx
    · rw [hother d hdc, h.asked d hd]
  · rcases hcases hd with ⟨rfl, hx⟩ | ⟨hdc, hd⟩
    · exact (hwait wait hx).1
    · rw [hother d hdc, h.askedAof d wait hd]
  · rcases hcases hd with ⟨rfl, hx⟩ | ⟨hdc, hd⟩
    · exact (hwait wait hx).2
    · exact h.wait d wait hd

theorem Learned.step {e : ProbeEvent} (h : Learned Seen s)
    (hseen : ∀ c r call, e = .answer c r → s.lastCall c = some call → Seen c call r)
    (hs : probeStep s e = some s') : Learned Seen s' := by
  cases ProbeStep.of_step hs with
  | share hc hg hw | fail hc hr | leave hc | abandon hc =>
    exact h.update rfl rfl (fun _ _ => rfl) (by simp) (by simp)
  | @probe c hc hg hw =>
    have hlast := fun d => @ProbeState.lastCall_send s
      { (s.set c .probingWait).send c waitProbe with guard := some c } c d waitProbe rfl
    refine h.update (c := c) (x := .probingWait) rfl rfl (fun d hd => ?_) (fun _ => ?_) (by simp)
    · rw [hlast d, if_neg hd]
    · rw [hlast c, if_pos rfl]
  | @probeAof c r wait hc hr =>
    have hlast := fun d => @ProbeState.lastCall_send s
      ((s.set c (.probingWaitAof wait)).send c waitAofProbe) c d waitAofProbe rfl
    refine h.update (c := c) (x := .probingWaitAof wait) rfl rfl (fun d hd => ?_) (by simp)
      fun b hb => ⟨?_, r, hseen c r _ rfl (h.asked c hc), ?_⟩
    · rw [hlast d, if_neg hd]
    · rw [hlast c, if_pos rfl]
    · rwa [← Prober.probingWaitAof.inj hb]
  | @learn c r wait waitAof hc hr =>
    obtain ⟨r₁, hr₁, hwait⟩ := h.wait c wait hc
    have hlearned : Learned Seen (s.set c (.got ⟨wait, waitAof⟩)) :=
      h.update rfl rfl (fun _ _ => rfl) (by simp) (by simp)
    refine ⟨hlearned.asked, hlearned.askedAof, hlearned.wait, fun v hv =>
      ⟨c, r₁, r, hr₁, hseen c r _ rfl (h.askedAof c wait hc), ?_⟩⟩
    obtain rfl : ⟨wait, waitAof⟩ = v := Option.some.inj hv
    exact ⟨hwait, hr⟩

theorem learned_of_run (h : run probeStep .new es = some s) : Learned (RepliedTo es) s := by
  induction es using List.reverseRecOn generalizing s with
  | nil =>
    cases h
    exact ⟨nofun, nofun, nofun, nofun⟩
  | append_singleton es e ih =>
    obtain ⟨m, hm, hlast⟩ := Option.bind_eq_some_iff.mp (run_append ▸ h)
    obtain ⟨m', hstep, hs⟩ := run_cons.mp hlast
    obtain rfl : m' = s := Option.some.inj hs
    refine ((ih hm).mono fun _ _ _ hr => hr.append [e]).step (fun c r call he hcall => ?_) hstep
    subst he
    exact ⟨es, [], m, rfl, hm, hcall⟩

/-- The support is probed by one caller at a time, at most once to the end, and the same for
all: a filled cell never changes and lets no further call be sent. -/
structure ProbedOnce (es : List ProbeEvent) (s : ProbeState) : Prop where
  shared : ∀ c v, s.probers c = .got v → s.waitSupport = some v
  answered : ∀ v, s.waitSupport = some v → ∃ c r r', RepliedTo es c waitProbe r ∧
    RepliedTo es c waitAofProbe r' ∧ probed r = .ok v.wait ∧ probed r' = .ok v.waitAof
  exclusive : ∀ c d, (s.probers c).client = .computing → (s.probers d).client = .computing → c = d
  bounded : s.sent.length ≤ 2 * (s.lost + 1)
  final : ∀ v es' s', s.waitSupport = some v → run probeStep s es' = some s' →
    s'.waitSupport = some v ∧ s'.sent = s.sent

theorem ProbeState.Simulates.idle {u : SingleFlight.State WaitSupport Error} (h : s.Simulates u)
    {v : WaitSupport} (hv : s.waitSupport = some v) (c : Nat) : (s.probers c).client ≠ .computing := by
  intro hc
  have hlock := h.invariant.idle (by simp [h.cell, hv])
  rw [← h.client, h.invariant.holder, hlock] at hc
  cases hc

theorem ProbeState.Simulates.final {u : SingleFlight.State WaitSupport Error} {v : WaitSupport}
    (h : s.Simulates u) (hv : s.waitSupport = some v) (hr : run probeStep s es = some t) :
    t.waitSupport = some v ∧ t.sent = s.sent := by
  have hinv : (∃ u, t.Simulates u) ∧ t.waitSupport = some v ∧ t.sent = s.sent := by
    refine @run_invariant _ _ probeStep (fun m : ProbeState => (∃ u, m.Simulates u) ∧
      m.waitSupport = some v ∧ m.sent = s.sent) _ _ _ (fun m e m' hm hs => ?_) ⟨⟨u, h⟩, hv, rfl⟩ hr
    obtain ⟨⟨u, hu⟩, hw, hsent⟩ := hm
    obtain ⟨_, u', _, hu'⟩ := hu.step hs
    refine ⟨⟨u', hu'⟩, ?_⟩
    cases ProbeStep.of_step hs with
    | share hc | leave hc => exact ⟨hw, hsent⟩
    | probe hc hg hnone => simp [hw] at hnone
    | probeAof hc hr | learn hc hr => exact absurd (by rw [hc]; rfl) (hu.idle hw _)
    | fail hc hr => exact absurd hc (hu.idle hw _)
    | abandon hc => exact absurd hc (hu.idle hw _)
  exact hinv.2

theorem probedOnce_of_run (h : run probeStep .new es = some s) : ProbedOnce es s := by
  obtain ⟨es', u, hu, hsim⟩ := ProbeState.Simulates.of_run h
  refine ⟨fun c v hc => ?_, (learned_of_run h).support, fun c d hc hd => ?_, ?_, fun v es' s' hv hr =>
    hsim.final hv hr⟩
  · rw [← hsim.cell]
    exact hsim.invariant.shared c v (by rw [hsim.client, hc]; rfl)
  · rw [← hsim.client, hsim.invariant.holder] at hc hd
    exact Option.some.inj (hc.symm.trans hd)
  · have hsent := hsim.sent
    have hcount := hsim.invariant.count
    rw [hsim.lost, hsim.lock, hsim.cell] at hcount
    have hidle := hsim.invariant.idle
    rw [hsim.lock, hsim.cell] at hidle
    cases hw : s.waitSupport with
    | none =>
      have hle : s.guard.toList.length ≤ 1 := by cases s.guard <;> simp
      simp only [hw, Option.toList_none, List.length_nil] at hcount
      omega
    | some v =>
      simp only [hw, hidle (by simp [hw]), Option.toList_none, Option.toList_some, List.length_nil,
        List.length_singleton] at hcount
      omega

end Runs

/-! The first caller is cancelled after WAIT, the second probes to the end, and a third finds
the value. -/

def probedTwice : List ProbeEvent :=
  [.lock 0, .answer 0 (.ok (.integer 0)), .cancel 0, .lock 1, .answer 1 (.ok (.integer 0)),
    .answer 1 (.error ⟨"ERR unknown command 'WAITAOF'"⟩), .lock 2]

theorem probedOnce_probedTwice : ∃ s, run probeStep .new probedTwice = some s ∧
    s.probers 2 = .got ⟨true, false⟩ ∧ ProbedOnce probedTwice s := by
  obtain ⟨s, hs, hgot⟩ : ∃ s, run probeStep .new probedTwice = some s ∧
      s.probers 2 = .got ⟨true, false⟩ := ⟨_, rfl, rfl⟩
  exact ⟨s, hs, hgot, probedOnce_of_run hs⟩

end Redisson
