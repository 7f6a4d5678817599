import Redisson.BatchExecution
import Redisson.NodeIsolation
import Redisson.StrandedCommands
import Redisson.TransactionIntegrity

/-! What happens to each command of a batch at most once, under any interleaving: one terminal
call gets past the `executed` check, takes the queue once, and hands each command on once; and
each sender is completed once. -/

namespace Redisson

open LabelledRuns

/-- The index that an `async0` call has taken, as long as it waits for its reply. -/
def Caller.Holds : Caller → Nat → Prop
  | .indexed i, j | .sending i, j | .waiting i, j => i = j
  | .idle, _ | .resolved _, _ => False

namespace BatchState

/-- `fetch_add` gives no index twice, and a call is queued at most once. -/
structure Numbered (s : BatchState) : Prop where
  below : ∀ c i, (s.callers c).Holds i → i < s.nextIndex
  own : ∀ c c' i, (s.callers c).Holds i → (s.callers c').Holds i → c = c'
  queued_once : (s.queue.map Pending.caller).Nodup

theorem numbered_new : new.Numbered := by
  constructor <;> simp [new, Caller.Holds]

section Numbering

variable {s s' : BatchState} {c : Nat} {x : Caller}

theorem Numbered.of_caller (hs : s.Numbered) (hnext : s'.nextIndex = s.nextIndex)
    (hcall : ∀ c i, (s'.callers c).Holds i → (s.callers c).Holds i)
    (hqueue : (s'.queue.map Pending.caller).Nodup) : s'.Numbered := by
  constructor
  · intro c i hi
    rw [hnext]
    exact hs.below c i (hcall c i hi)
  · exact fun c c' i hi hi' => hs.own c c' i (hcall c i hi) (hcall c' i hi')
  · exact hqueue

theorem holds_of_update (hx : ∀ i, x.Holds i → (s.callers c).Holds i) (c' i : Nat)
    (h : (Function.update s.callers c x c').Holds i) : (s.callers c').Holds i := by
  by_cases heq : c' = c
  · subst heq
    rw [Function.update_self] at h
    exact hx i h
  · rwa [Function.update_of_ne heq] at h

theorem Numbered.fetchIndex (hs : s.Numbered) :
    ({ s.setCaller c (.indexed s.nextIndex) with nextIndex := s.nextIndex + 1 } : BatchState).Numbered := by
  have hcases : ∀ c' i, (Function.update s.callers c (.indexed s.nextIndex) c').Holds i →
      c' = c ∧ i = s.nextIndex ∨ c' ≠ c ∧ (s.callers c').Holds i := by
    intro c' i hi
    by_cases heq : c' = c
    · subst heq
      rw [Function.update_self] at hi
      exact .inl ⟨rfl, hi.symm⟩
    · rw [Function.update_of_ne heq] at hi
      exact .inr ⟨heq, hi⟩
  constructor
  · intro c' i hi
    rcases hcases c' i hi with ⟨-, rfl⟩ | ⟨-, hi⟩
    · exact Nat.lt_succ_self _
    · exact Nat.lt_succ_of_lt (hs.below c' i hi)
  · intro c₁ c₂ i h₁ h₂
    rcases hcases c₁ i h₁ with ⟨hc₁, hi₁⟩ | ⟨-, hold₁⟩ <;>
      rcases hcases c₂ i h₂ with ⟨hc₂, hi₂⟩ | ⟨-, hold₂⟩
    · rw [hc₁, hc₂]
    · have hlt := hs.below c₂ i hold₂
      omega
    · have hlt := hs.below c₁ i hold₁
      omega
    · exact hs.own c₁ c₂ i hold₁ hold₂
  · exact hs.queued_once

theorem Numbered.enqueue {i : Nat} (hs : s.Numbered) (hsound : s.Sound) (hi : (s.callers c).Holds i)
    (hc : ∀ i, s.callers c ≠ .waiting i) : (s.enqueue c i).Numbered := by
  refine hs.of_caller rfl (holds_of_update fun j hj => ?_) ?_
  · obtain rfl : i = j := hj
    exact hi
  · have hnot : c ∉ s.queue.map Pending.caller := by
      intro hm
      obtain ⟨p, hp, rfl⟩ := List.mem_map.mp hm
      exact hc p.index (hsound.queue_waiting p hp)
    have hnodup := hs.queued_once
    simp only [BatchState.enqueue, List.map_append, List.map_cons, List.map_nil]
    exact hnodup.append (by simp) (by simpa using hnot)

theorem Numbered.step {kind : QueueKind} {e : BatchEvent} (hs : s.Numbered) (hsound : s.Sound)
    (h : BatchStep kind s e s') : s'.Numbered := by
  have hnone : ∀ (c : Nat) (r : Reply) (i : Nat), (Caller.resolved r).Holds i → (s.callers c).Holds i :=
    fun _ _ _ h => h.elim
  cases h with
  | fetchIndex hc => exact hs.fetchIndex
  | push hk hc hl => exact hs.enqueue hsound (by simp [hc, Caller.Holds]) (by simp [hc])
  | lockQueue hk hc hl =>
    refine hs.of_caller rfl (holds_of_update fun j hj => ?_) hs.queued_once
    rw [hc]
    exact hj
  | refuse hc => exact hs.of_caller rfl (holds_of_update (hnone _ _)) hs.queued_once
  | @enqueue c i hc =>
    have hh := hs.enqueue hsound (c := c) (i := i) (by simp [hc, Caller.Holds]) (by simp [hc])
    exact hh.of_caller rfl (fun _ _ h => h) hh.queued_once
  | settle hc => exact hs.of_caller rfl (holds_of_update (hnone _ _)) hs.queued_once
  | discard ht hl =>
    refine hs.of_caller rfl (fun c i hi => ?_) List.nodup_nil
    by_cases hm : c ∈ s.queue.map Pending.caller
    · simp only [discardAll, setTerminal, if_pos hm, Caller.Holds] at hi
    · simpa only [discardAll, setTerminal, if_neg hm] using hi
  | lose | win | drainEmpty | timeOut | finish => exact hs.of_caller rfl (fun _ _ h => h) hs.queued_once
  | drain ht hl hq => exact hs.of_caller rfl (fun _ _ h => h) List.nodup_nil

theorem Numbered.indexes_nodup (hs : s.Numbered) (hsound : s.Sound) :
    (s.queue.map Pending.index).Nodup := by
  refine List.Nodup.map_on ?_ (List.Nodup.of_map _ hs.queued_once)
  intro p hp p' hp' heq
  have hw := hsound.queue_waiting p hp
  have hw' := hsound.queue_waiting p' hp'
  have hcaller := hs.own p.caller p'.caller p.index (by simp [hw, Caller.Holds])
    (by simp [hw', Caller.Holds, heq])
  cases p
  cases p'
  simp_all

end Numbering

end BatchState

/-- What has happened so far: which terminal calls got past the `executed` check, which took
the queue, the commands handed on by `execute_async`, and the calls whose sender was completed. -/
structure History where
  passed : List (Nat × TerminalOp)
  drained : List Nat
  handed : List Pending
  completed : List Nat

def History.record (s : BatchState) (h : History) : BatchEvent → History
  | .compareExchange t op => if s.executed then h else { h with passed := h.passed ++ [(t, op)] }
  | .drain t =>
    match s.terminals t with
    | .won .execute => { h with drained := h.drained ++ [t], handed := h.handed ++ s.queue }
    | .won .discard =>
      { h with drained := h.drained ++ [t], completed := h.completed ++ s.queue.map Pending.caller }
    | _ => h
  | .settle _ c _ | .refuse c _ => { h with completed := h.completed ++ [c] }
  | _ => h

structure Recorded where
  state : BatchState
  history : History

def Recorded.new : Recorded := ⟨.new, ⟨[], [], [], []⟩⟩

def recordedStep (kind : QueueKind) (r : Recorded) (e : BatchEvent) : Option Recorded :=
  (batchStep kind r.state e).map fun s => ⟨s, r.history.record r.state e⟩

/-- Recording takes nothing away: every run of the batch is recorded. -/
theorem exists_recorded {kind : QueueKind} {r : Recorded} {s : BatchState} {es : List BatchEvent}
    (h : run (batchStep kind) r.state es = some s) :
    ∃ h', run (recordedStep kind) r es = some ⟨s, h'⟩ := by
  induction es generalizing r with
  | nil =>
    obtain rfl : r.state = s := by simpa [run] using h
    exact ⟨r.history, rfl⟩
  | cons e es ih =>
    obtain ⟨m, hm, hrun⟩ := run_cons.mp h
    obtain ⟨h', hh⟩ := @ih ⟨m, r.history.record r.state e⟩ hrun
    exact ⟨h', run_cons.mpr ⟨_, by simp [recordedStep, hm], hh⟩⟩

inductive Phase
  | outside
  | passed (op : TerminalOp)
  | closed
  deriving DecidableEq

def Terminal.phase : Terminal → Phase
  | .idle | .refused => .outside
  | .won op => .passed op
  | .running _ | .returned _ => .closed

/-- How far the terminal calls are, all together. A `timeOut` closes the batch without taking
the queue. -/
inductive Stage (phase : Nat → Phase) (executed : Bool) (h : History) : Prop
  | before (he : executed = false) (hp : h.passed = []) (hd : h.drained = []) (hh : h.handed = [])
      (hout : ∀ t, phase t = .outside)
  | passed {t : Nat} {op : TerminalOp} (he : executed = true) (hp : h.passed = [(t, op)])
      (hd : h.drained = []) (hh : h.handed = []) (ht : phase t = .passed op)
      (hout : ∀ t', t' ≠ t → phase t' = .outside)
  | closed {t : Nat} {op : TerminalOp} (he : executed = true) (hp : h.passed = [(t, op)])
      (hd : h.drained = [] ∨ h.drained = [t]) (hh : h.handed = [] ∨ op = .execute)
      (ht : phase t = .closed) (hout : ∀ t', t' ≠ t → phase t' = .outside)

namespace Stage

variable {phase phase' : Nat → Phase} {executed : Bool} {h h' : History} {t : Nat} {op : TerminalOp}

theorem of_eq (hs : Stage phase executed h) (hphase : ∀ t, phase' t = phase t)
    (hp : h'.passed = h.passed) (hd : h'.drained = h.drained) (hh : h'.handed = h.handed) :
    Stage phase' executed h' := by
  obtain rfl : phase' = phase := funext hphase
  cases hs with
  | before he hp₀ hd₀ hh₀ hout =>
    exact .before he (hp.trans hp₀) (hd.trans hd₀) (hh.trans hh₀) hout
  | passed he hp₀ hd₀ hh₀ ht hout =>
    exact .passed he (hp.trans hp₀) (hd.trans hd₀) (hh.trans hh₀) ht hout
  | closed he hp₀ hd₀ hh₀ ht hout =>
    exact .closed he (hp.trans hp₀) (hd ▸ hd₀) (hh ▸ hh₀) ht hout

/-- A call that has passed and not taken the queue is the only one, and nothing is handed on. -/
theorem of_passed (hs : Stage phase executed h) (ht : phase t = .passed op) :
    executed = true ∧ h.passed = [(t, op)] ∧ h.drained = [] ∧ h.handed = [] ∧
      ∀ t', t' ≠ t → phase t' = .outside := by
  cases hs with
  | before he hp hd hh hout => simp [hout] at ht
  | @passed t₀ op₀ he hp hd hh ht₀ hout =>
    obtain rfl : t = t₀ := by
      by_contra hne
      simp [hout t hne] at ht
    obtain rfl : op₀ = op := by simpa using ht₀.symm.trans ht
    exact ⟨he, hp, hd, hh, hout⟩
  | @closed t₀ op₀ he hp hd hh ht₀ hout =>
    by_cases heq : t = t₀
    · rw [heq, ht₀] at ht
      cases ht
    · simp [hout t heq] at ht

theorem win (hs : Stage phase false h) (op : TerminalOp) (t : Nat)
    (hphase : phase' = Function.update phase t (.passed op)) :
    Stage phase' true { h with passed := h.passed ++ [(t, op)] } := by
  cases hs with
  | before he hp hd hh hout =>
    refine @passed _ _ _ t op rfl (by simp [hp]) hd hh (by simp [hphase]) fun t' hne => ?_
    simp [hphase, hne, hout]
  | passed he | closed he => cases he

theorem close (hs : Stage phase executed h) (ht : phase t = .passed op)
    (hphase : phase' = Function.update phase t .closed) (hp : h'.passed = h.passed)
    (hd : h'.drained = [] ∨ h'.drained = [t]) (hh : h'.handed = [] ∨ op = .execute) :
    Stage phase' executed h' := by
  obtain ⟨he, hp₀, -, -, hout⟩ := hs.of_passed ht
  refine .closed he (hp.trans hp₀) hd hh (by simp [hphase]) fun t' hne => ?_
  simp [hphase, hne, hout]

end Stage

namespace Recorded

structure Inv (r : Recorded) : Prop where
  sound : r.state.Sound
  numbered : r.state.Numbered
  stage : Stage (fun t => (r.state.terminals t).phase) r.state.executed r.history
  handed_once : (r.history.handed.map Pending.caller).Nodup ∧ (r.history.handed.map Pending.index).Nodup
  completed_once : r.history.completed.Nodup
  completed_resolved : ∀ c ∈ r.history.completed, ∃ reply, r.state.callers c = .resolved reply

section Steps

variable {kind : QueueKind} {s s' : BatchState} {h : History} {e : BatchEvent}

theorem phase_update {t : Nat} {y : Terminal} {p : Phase}
    (hterm : s'.terminals = Function.update s.terminals t y) (hy : y.phase = p) :
    (fun t' => (s'.terminals t').phase) = Function.update (fun t' => (s.terminals t').phase) t p := by
  funext t'
  rw [hterm, ← hy]
  by_cases heq : t' = t
  · subst heq
    simp
  · simp [heq]

theorem phase_eq {t : Nat} {y : Terminal} (hterm : s'.terminals = Function.update s.terminals t y)
    (hy : y.phase = (s.terminals t).phase) (t' : Nat) :
    (s'.terminals t').phase = (s.terminals t').phase := by
  have hh := congrFun (phase_update hterm hy) t'
  simpa using hh

@[simp] theorem dropSender_phase (c : Nat) (y : Terminal) : (y.dropSender c).phase = y.phase := by
  cases y <;> rfl

theorem stage_step (hs : Stage (fun t => (s.terminals t).phase) s.executed h)
    (hstep : BatchStep kind s e s') :
    Stage (fun t => (s'.terminals t).phase) s'.executed (h.record s e) := by
  cases hstep with
  | fetchIndex | push | lockQueue | refuse | enqueue => exact hs.of_eq (fun _ => rfl) rfl rfl rfl
  | settle hc => exact hs.of_eq (phase_eq rfl (dropSender_phase _ _)) rfl rfl rfl
  | lose ht he =>
    refine hs.of_eq (phase_eq rfl ?_) ?_ ?_ ?_
    · rw [ht]
      rfl
    all_goals simp [History.record, he]
  | @win t op ht he =>
    rw [he] at hs
    simp only [History.record, he, Bool.false_eq_true, if_false]
    exact hs.win op t (phase_update rfl rfl)
  | @discard t ht hl =>
    have hphase : (s.terminals t).phase = .passed .discard := by simp [ht, Terminal.phase]
    obtain ⟨-, -, hd, hh, -⟩ := hs.of_passed hphase
    exact hs.close hphase (phase_update rfl rfl) (by simp [History.record, ht])
      (.inr (by simp [History.record, ht, hd])) (.inl (by simp [History.record, ht, hh]))
  | @drainEmpty t ht hl hq | @drain t ht hl hq =>
    have hphase : (s.terminals t).phase = .passed .execute := by simp [ht, Terminal.phase]
    obtain ⟨-, -, hd, -, -⟩ := hs.of_passed hphase
    exact hs.close hphase (phase_update rfl rfl) (by simp [History.record, ht])
      (.inr (by simp [History.record, ht, hd])) (.inr rfl)
  | @timeOut t hk ht =>
    have hphase : (s.terminals t).phase = .passed .execute := by simp [ht, Terminal.phase]
    obtain ⟨-, -, hd, -, -⟩ := hs.of_passed hphase
    exact hs.close hphase (phase_update rfl rfl) rfl (.inl hd) (.inr rfl)
  | finish ht hl =>
    refine hs.of_eq (phase_eq rfl ?_) rfl rfl rfl
    rw [ht]
    rfl

theorem handed_step (hs : Stage (fun t => (s.terminals t).phase) s.executed h) (hsound : s.Sound)
    (hnumbered : s.Numbered)
    (hh : (h.handed.map Pending.caller).Nodup ∧ (h.handed.map Pending.index).Nodup)
    (hstep : BatchStep kind s e s') :
    ((h.record s e).handed.map Pending.caller).Nodup ∧ ((h.record s e).handed.map Pending.index).Nodup := by
  cases hstep with
  | @drainEmpty t ht hl hq | @drain t ht hl hq =>
    have hphase : (s.terminals t).phase = .passed .execute := by simp [ht, Terminal.phase]
    obtain ⟨-, -, -, hnil, -⟩ := hs.of_passed hphase
    have hrecord : (h.record s (.drain t)).handed = s.queue := by simp [History.record, ht, hnil]
    rw [hrecord]
    exact ⟨hnumbered.queued_once, hnumbered.indexes_nodup hsound⟩
  | discard ht hl => simpa [History.record, ht] using hh
  | lose ht he | win ht he => simpa [History.record, he] using hh
  | fetchIndex | push | lockQueue | refuse | enqueue | settle | timeOut | finish => exact hh

def completedBy (s : BatchState) : BatchEvent → List Nat
  | .drain t =>
    match s.terminals t with
    | .won .discard => s.queue.map Pending.caller
    | _ => []
  | .settle _ c _ | .refuse c _ => [c]
  | _ => []

theorem record_completed : (h.record s e).completed = h.completed ++ completedBy s e := by
  cases e with
  | compareExchange t op => by_cases he : s.executed = true <;> simp [History.record, completedBy, he]
  | drain t =>
    cases ht : s.terminals t with
    | won op => cases op <;> simp [History.record, completedBy, ht]
    | idle | refused | running | returned => simp [History.record, completedBy, ht]
  | fetchIndex | push | lockQueue | enqueue | timeOut | finish | settle | refuse =>
    simp [History.record, completedBy]

/-- A sender is completed for a call that has no reply yet, and gives it one. -/
theorem completedBy_fresh (hsound : s.Sound) (hnumbered : s.Numbered) (hstep : BatchStep kind s e s') :
    (completedBy s e).Nodup ∧ ∀ c ∈ completedBy s e,
      (∀ reply, s.callers c ≠ .resolved reply) ∧ ∃ reply, s'.callers c = .resolved reply := by
  cases hstep with
  | @settle t c r hc =>
    refine ⟨List.nodup_singleton c, fun c' hc' => ?_⟩
    obtain rfl : c' = c := List.mem_singleton.mp hc'
    obtain ⟨p, hp, rfl⟩ := List.mem_map.mp hc
    have hw := hsound.senders_waiting t p hp
    exact ⟨by simp [hw], r, by simp [BatchState.setCaller]⟩
  | @refuse c i err hc =>
    refine ⟨List.nodup_singleton c, fun c' hc' => ?_⟩
    obtain rfl : c' = c := List.mem_singleton.mp hc'
    exact ⟨by simp [hc], .error err, by simp [BatchState.setCaller]⟩
  | @discard t ht hl =>
    have hcompleted : completedBy s (.drain t) = s.queue.map Pending.caller := by simp [completedBy, ht]
    rw [hcompleted]
    refine ⟨hnumbered.queued_once, fun c hc => ⟨?_, .error BatchState.discarded, if_pos hc⟩⟩
    obtain ⟨p, hp, rfl⟩ := List.mem_map.mp hc
    simp [hsound.queue_waiting p hp]
  | drainEmpty ht hl hq | drain ht hl hq => simp [completedBy, ht]
  | fetchIndex | push | lockQueue | enqueue | lose | win | timeOut | finish => simp [completedBy]

end Steps

theorem Inv.step {kind : QueueKind} {r r' : Recorded} {e : BatchEvent} (hr : r.Inv)
    (h : recordedStep kind r e = some r') : r'.Inv := by
  obtain ⟨s', hs', rfl⟩ := Option.map_eq_some_iff.mp h
  have hstep := BatchStep.of_step hs'
  obtain ⟨hnodup, hfresh⟩ := completedBy_fresh hr.sound hr.numbered hstep
  refine ⟨hr.sound.step hstep, hr.numbered.step hr.sound hstep, stage_step hr.stage hstep,
    handed_step hr.stage hr.sound hr.numbered hr.handed_once hstep, ?_, ?_⟩
  · rw [record_completed]
    refine hr.completed_once.append hnodup fun c hc hc' => ?_
    obtain ⟨reply, hreply⟩ := hr.completed_resolved c hc
    exact (hfresh c hc').1 reply hreply
  · intro c hc
    rw [record_completed] at hc
    rcases List.mem_append.mp hc with hc | hc
    · obtain ⟨reply, hreply⟩ := hr.completed_resolved c hc
      exact hstep.resolved hreply
    · exact (hfresh c hc).2

end Recorded

section Execution

variable {sha1 : String → String}

end Execution

namespace Recorded

end Recorded

end Redisson
