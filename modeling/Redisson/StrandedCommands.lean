import Redisson.BatchSystem

/-! Where the sender of a queued command can be: in the queue, or with the one terminal
call that got past the `executed` check. A command that reaches the queue after that call
has taken it stays there for good. -/

namespace Redisson

open LabelledRuns

namespace BatchState

structure Sound (s : BatchState) : Prop where
  winner_unique : ∀ t t', (s.terminals t).Winner → (s.terminals t').Winner → t = t'
  winner_executed : ∀ t, (s.terminals t).Winner → s.executed = true
  queue_waiting : ∀ p ∈ s.queue, s.callers p.caller = .waiting p.index
  senders_waiting : ∀ t, ∀ p ∈ (s.terminals t).senders, s.callers p.caller = .waiting p.index
  disjoint : ∀ t, ∀ p ∈ s.queue, ∀ p' ∈ (s.terminals t).senders, p.caller ≠ p'.caller
  waiting_held : ∀ c i, s.callers c = .waiting i →
    ⟨c, i⟩ ∈ s.queue ∨ ∃ t, ⟨c, i⟩ ∈ (s.terminals t).senders

theorem sound_new : new.Sound := by
  constructor <;> simp [new, Terminal.Winner, Terminal.senders]

section Preservation

variable {s s' : BatchState} {c : Nat} {x : Caller}

theorem Sound.of_caller (hs : s.Sound) (hexec : s'.executed = s.executed)
    (hqueue : s'.queue = s.queue) (hterm : s'.terminals = s.terminals)
    (hcall : s'.callers = Function.update s.callers c x)
    (hc : ∀ i, s.callers c ≠ .waiting i) (hx : ∀ i, x ≠ .waiting i) : s'.Sound := by
  have hkeep : ∀ c' i, s.callers c' = .waiting i → s'.callers c' = .waiting i := by
    intro c' i hi
    have hne : c' ≠ c := fun heq => hc i (heq ▸ hi)
    rw [hcall, Function.update_of_ne hne, hi]
  constructor
  · rw [hterm]
    exact hs.winner_unique
  · rw [hterm, hexec]
    exact hs.winner_executed
  · intro p hp
    exact hkeep _ _ (hs.queue_waiting p (hqueue ▸ hp))
  · intro t p hp
    exact hkeep _ _ (hs.senders_waiting t p (hterm ▸ hp))
  · rw [hterm, hqueue]
    exact hs.disjoint
  · intro c' i hi
    rw [hterm, hqueue]
    by_cases heq : c' = c
    · subst heq
      rw [hcall, Function.update_self] at hi
      exact absurd hi (hx i)
    · rw [hcall, Function.update_of_ne heq] at hi
      exact hs.waiting_held c' i hi

theorem Sound.enqueue {i : Nat} (hs : s.Sound) (hc : ∀ i, s.callers c ≠ .waiting i) :
    (s.enqueue c i).Sound := by
  have hkeep : ∀ c' j, s.callers c' = .waiting j → (s.enqueue c i).callers c' = .waiting j := by
    intro c' j hj
    have hne : c' ≠ c := fun heq => hc j (heq ▸ hj)
    simpa [BatchState.enqueue, setCaller, hne] using hj
  constructor
  · exact hs.winner_unique
  · exact hs.winner_executed
  · intro p hp
    rcases List.mem_append.mp hp with hp | hp
    · exact hkeep _ _ (hs.queue_waiting p hp)
    · obtain rfl : p = ⟨c, i⟩ := by simpa using hp
      simp [BatchState.enqueue, setCaller]
  · intro t p hp
    exact hkeep _ _ (hs.senders_waiting t p hp)
  · intro t p hp p' hp' heq
    rcases List.mem_append.mp hp with hp | hp
    · exact hs.disjoint t p hp p' hp' heq
    · obtain rfl : p = ⟨c, i⟩ := by simpa using hp
      have hw := hs.senders_waiting t p' hp'
      rw [← heq] at hw
      exact hc p'.index hw
  · intro c' j hj
    by_cases heq : c' = c
    · subst heq
      obtain rfl : i = j := by simpa [BatchState.enqueue, setCaller] using hj
      exact .inl (List.mem_append_right _ (List.mem_singleton.mpr rfl))
    · have hj' : s.callers c' = .waiting j := by
        simpa [BatchState.enqueue, setCaller, heq] using hj
      exact (hs.waiting_held c' j hj').imp_left (List.mem_append_left _)

theorem Sound.of_terminal {t : Nat} {y : Terminal} (hs : s.Sound)
    (hqueue : s'.queue = s.queue) (hcall : s'.callers = s.callers)
    (hterm : s'.terminals = Function.update s.terminals t y)
    (hsend : y.senders = (s.terminals t).senders)
    (hwin : y.Winner → (s.terminals t).Winner ∨ ∀ t', ¬ (s.terminals t').Winner)
    (hexec : s'.executed = s.executed ∨ s'.executed = true)
    (hy : y.Winner → s'.executed = true) : s'.Sound := by
  have hsenders : ∀ t', (s'.terminals t').senders = (s.terminals t').senders := by
    intro t'
    by_cases heq : t' = t
    · subst heq
      rw [hterm, Function.update_self, hsend]
    · rw [hterm, Function.update_of_ne heq]
  have hwinner : ∀ t', (s'.terminals t').Winner → t' = t ∧ y.Winner ∨ (s.terminals t').Winner := by
    intro t' hw
    by_cases heq : t' = t
    · subst heq
      rw [hterm, Function.update_self] at hw
      exact .inl ⟨rfl, hw⟩
    · rw [hterm, Function.update_of_ne heq] at hw
      exact .inr hw
  constructor
  · intro t₁ t₂ h₁ h₂
    rcases hwinner t₁ h₁ with ⟨rfl, hy₁⟩ | h₁ <;> rcases hwinner t₂ h₂ with ⟨rfl, hy₂⟩ | h₂
    · rfl
    · rcases hwin hy₁ with hw | hw
      · exact hs.winner_unique _ _ hw h₂
      · exact absurd h₂ (hw t₂)
    · rcases hwin hy₂ with hw | hw
      · exact hs.winner_unique _ _ h₁ hw
      · exact absurd h₁ (hw t₁)
    · exact hs.winner_unique _ _ h₁ h₂
  · intro t' hw
    rcases hwinner t' hw with ⟨rfl, hw⟩ | hw
    · exact hy hw
    · rcases hexec with he | he
      · exact he ▸ hs.winner_executed t' hw
      · exact he
  · rw [hqueue, hcall]
    exact hs.queue_waiting
  · intro t' p hp
    rw [hsenders] at hp
    rw [hcall]
    exact hs.senders_waiting t' p hp
  · intro t' p hp p' hp'
    rw [hsenders] at hp'
    exact hs.disjoint t' p (hqueue ▸ hp) p' hp'
  · intro c' i hi
    simp only [hsenders, hqueue]
    exact hs.waiting_held c' i (hcall ▸ hi)

theorem Sound.moveOn {t : Nat} {y : Terminal} (hs : s.Sound) (ht : (s.terminals t).Winner)
    (hsend : y.senders = (s.terminals t).senders) : (s.setTerminal t y).Sound :=
  hs.of_terminal rfl rfl rfl hsend (fun _ => .inl ht) (.inl rfl) fun _ => hs.winner_executed t ht

theorem winner_of_update {t : Nat} {y : Terminal}
    (hterm : s'.terminals = Function.update s.terminals t y) (ht : (s.terminals t).Winner) {t' : Nat}
    (h : (s'.terminals t').Winner) : (s.terminals t').Winner := by
  by_cases heq : t' = t
  · exact heq ▸ ht
  · rwa [hterm, Function.update_of_ne heq] at h

theorem Sound.unique_of_update {t : Nat} {y : Terminal} (hs : s.Sound) (ht : (s.terminals t).Winner)
    (hterm : s'.terminals = Function.update s.terminals t y) :
    ∀ t₁ t₂, (s'.terminals t₁).Winner → (s'.terminals t₂).Winner → t₁ = t₂ := fun t₁ t₂ h₁ h₂ =>
  hs.winner_unique t₁ t₂ (winner_of_update hterm ht h₁) (winner_of_update hterm ht h₂)

theorem Sound.executed_of_update {t : Nat} {y : Terminal} (hs : s.Sound) (ht : (s.terminals t).Winner)
    (hterm : s'.terminals = Function.update s.terminals t y) (hexec : s'.executed = s.executed) :
    ∀ t', (s'.terminals t').Winner → s'.executed = true := fun t' h =>
  hexec.trans (hs.winner_executed t' (winner_of_update hterm ht h))

theorem Sound.senders_eq_nil {t t' : Nat} (hs : s.Sound) (ht : (s.terminals t).Winner)
    (hne : t' ≠ t) : (s.terminals t').senders = [] := by
  cases hx : s.terminals t' with
  | running l | returned l =>
    exact absurd (hs.winner_unique t' t (by simp [hx, Terminal.Winner]) ht) hne
  | _ => rfl

/-- A command that a call holds is held by the call that has won. -/
theorem Sound.holder_eq {t t' : Nat} {p : Pending} (hs : s.Sound) (ht : (s.terminals t).Winner)
    (hp : p ∈ (s.terminals t').senders) : t' = t := by
  by_contra hne
  simp [hs.senders_eq_nil ht hne] at hp

theorem Sound.discard {t : Nat} (hs : s.Sound) (ht : s.terminals t = .won .discard) :
    (s.discardAll.setTerminal t (.returned [])).Sound := by
  have hwin : (s.terminals t).Winner := by simp [ht, Terminal.Winner]
  have hnil : ∀ t', ((s.discardAll.setTerminal t (.returned [])).terminals t').senders = [] := by
    intro t'
    by_cases heq : t' = t
    · simp [heq, setTerminal, Terminal.senders]
    · simpa [setTerminal, discardAll, heq] using hs.senders_eq_nil hwin heq
  constructor
  · exact hs.unique_of_update hwin rfl
  · exact hs.executed_of_update hwin rfl rfl
  · simp [discardAll, setTerminal]
  · intro t' p hp
    simp [hnil] at hp
  · intro t' p hp
    simp [discardAll, setTerminal] at hp
  · intro c' i hi
    have hq : c' ∉ s.queue.map Pending.caller ∧ s.callers c' = .waiting i := by
      by_cases hm : c' ∈ s.queue.map Pending.caller
      · simp only [setTerminal, discardAll, if_pos hm] at hi
        cases hi
      · exact ⟨hm, by simpa only [setTerminal, discardAll, if_neg hm] using hi⟩
    rcases hs.waiting_held c' i hq.2 with hp | ⟨t', hp⟩
    · exact absurd (List.mem_map_of_mem (f := Pending.caller) hp) hq.1
    · obtain rfl := hs.holder_eq hwin hp
      simp [ht, Terminal.senders] at hp

theorem Sound.drain {t : Nat} (hs : s.Sound) (ht : s.terminals t = .won .execute) :
    ({ s.setTerminal t (.running s.queue) with queue := [] } : BatchState).Sound := by
  have hwin : (s.terminals t).Winner := by simp [ht, Terminal.Winner]
  constructor
  · exact hs.unique_of_update hwin rfl
  · exact hs.executed_of_update hwin rfl rfl
  · simp
  · intro t' p hp
    by_cases heq : t' = t
    · have hp' : p ∈ s.queue := by simpa [heq, setTerminal, Terminal.senders] using hp
      exact hs.queue_waiting p hp'
    · simp [setTerminal, heq, hs.senders_eq_nil hwin heq] at hp
  · simp
  · intro c' i hi
    rcases hs.waiting_held c' i hi with hp | ⟨t', hp⟩
    · exact .inr ⟨t, by simpa [setTerminal, Terminal.senders] using hp⟩
    · obtain rfl := hs.holder_eq hwin hp
      simp [ht, Terminal.senders] at hp

theorem mem_dropSender {y : Terminal} {p : Pending} :
    p ∈ (y.dropSender c).senders ↔ p ∈ y.senders ∧ p.caller ≠ c := by
  cases y <;> simp [Terminal.dropSender, Terminal.senders]

theorem winner_of_sender {y : Terminal} (h : c ∈ y.senders.map Pending.caller) : y.Winner := by
  cases y <;> simp_all [Terminal.senders, Terminal.Winner]

theorem Sound.settle {t : Nat} {r : Reply} (hs : s.Sound)
    (hc : c ∈ (s.terminals t).senders.map Pending.caller) :
    ((s.setTerminal t ((s.terminals t).dropSender c)).setCaller c (.resolved r)).Sound := by
  have hwin := winner_of_sender hc
  obtain ⟨p₀, hp₀, rfl⟩ := List.mem_map.mp hc
  constructor
  · exact hs.unique_of_update hwin rfl
  · exact hs.executed_of_update hwin rfl rfl
  · intro p hp
    have hne : p.caller ≠ p₀.caller := hs.disjoint t p hp p₀ hp₀
    simpa [setTerminal, setCaller, hne] using hs.queue_waiting p hp
  · intro t' p hp
    by_cases heq : t' = t
    · subst heq
      have hp' : p ∈ (s.terminals t').senders ∧ p.caller ≠ p₀.caller := by
        simpa [setTerminal, setCaller, mem_dropSender] using hp
      simpa [setTerminal, setCaller, hp'.2] using hs.senders_waiting t' p hp'.1
    · simp [setTerminal, setCaller, heq, hs.senders_eq_nil hwin heq] at hp
  · intro t' p hp p' hp'
    by_cases heq : t' = t
    · subst heq
      have hp'' : p' ∈ (s.terminals t').senders ∧ p'.caller ≠ p₀.caller := by
        simpa [setTerminal, setCaller, mem_dropSender] using hp'
      exact hs.disjoint t' p hp p' hp''.1
    · simp [setTerminal, setCaller, heq, hs.senders_eq_nil hwin heq] at hp'
  · intro c' i hi
    have hc' : c' ≠ p₀.caller ∧ s.callers c' = .waiting i := by
      by_cases heq : c' = p₀.caller
      · simp [setTerminal, setCaller, heq] at hi
      · exact ⟨heq, by simpa [setTerminal, setCaller, heq] using hi⟩
    rcases hs.waiting_held c' i hc'.2 with hp | ⟨t', hp⟩
    · exact .inl hp
    · obtain rfl := hs.holder_eq hwin hp
      exact .inr ⟨t', by simpa [setTerminal, setCaller, mem_dropSender] using ⟨hp, hc'.1⟩⟩

end Preservation

theorem Sound.step {kind : QueueKind} {s s' : BatchState} {e : BatchEvent} (hs : s.Sound)
    (h : BatchStep kind s e s') : s'.Sound := by
  cases h with
  | fetchIndex hc => exact hs.of_caller rfl rfl rfl rfl (by simp [hc]) (by simp)
  | push hk hc hl => exact hs.enqueue (by simp [hc])
  | lockQueue hk hc hl => exact hs.of_caller rfl rfl rfl rfl (by simp [hc]) (by simp)
  | refuse hc => exact hs.of_caller rfl rfl rfl rfl (by simp [hc]) (by simp)
  | @enqueue c i hc =>
    obtain ⟨h1, h2, h3, h4, h5, h6⟩ := @Sound.enqueue s c i hs (by simp [hc])
    exact ⟨h1, h2, h3, h4, h5, h6⟩
  | lose ht he =>
    exact hs.of_terminal rfl rfl rfl (by simp [ht, Terminal.senders]) (by simp [Terminal.Winner])
      (.inl rfl) (by simp [Terminal.Winner])
  | win ht he =>
    have hnone : ∀ t', ¬ (s.terminals t').Winner := by
      intro t' hw
      simp [hs.winner_executed t' hw] at he
    exact hs.of_terminal rfl rfl rfl (by simp [ht, Terminal.senders]) (fun _ => .inr hnone)
      (.inr rfl) (fun _ => rfl)
  | discard ht hl => exact hs.discard ht
  | drainEmpty ht hl hq =>
    exact hs.moveOn (by simp [ht, Terminal.Winner]) (by simp [ht, Terminal.senders])
  | drain ht hl hq => exact hs.drain ht
  | timeOut hk ht =>
    exact hs.moveOn (by simp [ht, Terminal.Winner]) (by simp [ht, Terminal.senders])
  | settle hc => exact hs.settle hc
  | finish ht hl =>
    exact hs.moveOn (by simp [ht, Terminal.Winner]) (by simp [ht, Terminal.senders])

def InProgress (s : BatchState) (c : Nat) : Prop :=
  ∃ i, s.callers c = .indexed i ∨ s.callers c = .sending i

def Closed (s : BatchState) : Prop := ∃ t, (s.terminals t).Closed

/-- Once a terminal call has returned, the queue is empty and every `async0` call that has
begun is resolved, unless its sender is in a task of that terminal call that is about to be
aborted. -/
def NoStranded (s : BatchState) : Prop :=
  ∀ t, (s.terminals t).Returned → s.queue = [] ∧
    ∀ c, s.callers c = .idle ∨ (∃ r, s.callers c = .resolved r) ∨
      ∃ i, s.callers c = .waiting i ∧ ⟨c, i⟩ ∈ (s.terminals t).senders

/-- No `async0` call begins after the queue was closed, none is under way when it is, and a
Redis-based execution that times out before it has the queue leaves nothing in it. -/
def Timely (s : BatchState) : BatchEvent → Prop
  | .fetchIndex _ => ¬ s.Closed
  | .drain _ => ∀ c, ¬ s.InProgress c
  | .timeOut _ => s.queue = [] ∧ ∀ c, ¬ s.InProgress c
  | _ => True

structure Orderly (s : BatchState) : Prop where
  sound : s.Sound
  calm : s.Closed → s.queue = [] ∧ ∀ c, ¬ s.InProgress c

theorem Orderly.noStranded {s : BatchState} (h : s.Orderly) : s.NoStranded := by
  intro t ht
  have hclosed : s.Closed := by
    refine ⟨t, ?_⟩
    cases hx : s.terminals t <;> simp_all [Terminal.Returned, Terminal.Closed]
  obtain ⟨hqueue, hcalm⟩ := h.calm hclosed
  refine ⟨hqueue, fun c => ?_⟩
  cases hc : s.callers c with
  | idle => exact .inl rfl
  | resolved r => exact .inr (.inl ⟨r, rfl⟩)
  | indexed i => exact absurd ⟨i, .inl hc⟩ (hcalm c)
  | sending i => exact absurd ⟨i, .inr hc⟩ (hcalm c)
  | waiting i =>
    refine .inr (.inr ⟨i, rfl, ?_⟩)
    rcases h.sound.waiting_held c i hc with hq | ⟨t', ht'⟩
    · simp [hqueue] at hq
    · have hwin : (s.terminals t).Winner := by
        cases hx : s.terminals t <;> simp_all [Terminal.Returned, Terminal.Winner]
      exact h.sound.holder_eq hwin ht' ▸ ht'

theorem closed_of_setTerminal {s s' : BatchState} {t : Nat} {y : Terminal}
    (hterm : s'.terminals = Function.update s.terminals t y) (hy : y.Closed → (s.terminals t).Closed)
    (h : s'.Closed) : s.Closed := by
  unfold Closed at h
  rw [hterm] at h
  rcases of_exists_update (P := Terminal.Closed) h with hclosed | hclosed
  · exact ⟨t, hy hclosed⟩
  · exact hclosed

theorem Orderly.step {kind : QueueKind} {s s' : BatchState} {e : BatchEvent} (h : s.Orderly)
    (hok : s.Timely e) (hstep : BatchStep kind s e s') : s'.Orderly := by
  refine ⟨h.sound.step hstep, ?_⟩
  intro hclosed
  cases hstep with
  | fetchIndex hc => exact absurd hclosed hok
  | push hk hc hl => exact absurd ⟨_, .inl hc⟩ ((h.calm hclosed).2 _)
  | lockQueue hk hc hl => exact absurd ⟨_, .inl hc⟩ ((h.calm hclosed).2 _)
  | refuse hc => exact absurd ⟨_, .inr hc⟩ ((h.calm hclosed).2 _)
  | enqueue hc => exact absurd ⟨_, .inr hc⟩ ((h.calm hclosed).2 _)
  | lose ht he => exact h.calm (closed_of_setTerminal rfl (by simp [Terminal.Closed]) hclosed)
  | win ht he => exact h.calm (closed_of_setTerminal rfl (by simp [Terminal.Closed]) hclosed)
  | discard ht hl =>
    refine ⟨rfl, fun c ⟨i, hi⟩ => hok c ⟨i, ?_⟩⟩
    by_cases hm : c ∈ s.queue.map Pending.caller
    · simp only [discardAll, setTerminal, if_pos hm] at hi
      simp at hi
    · simpa only [discardAll, setTerminal, if_neg hm] using hi
  | drainEmpty ht hl hq => exact ⟨hq, hok⟩
  | drain ht hl hq => exact ⟨rfl, hok⟩
  | timeOut hk ht => exact hok
  | @settle t c r hc =>
    have hrun : (s.terminals t).Closed := by
      cases hx : s.terminals t <;> simp_all [Terminal.senders, Terminal.Closed]
    obtain ⟨hqueue, hcalm⟩ := h.calm ⟨t, hrun⟩
    refine ⟨hqueue, fun c' ⟨i, hi⟩ => ?_⟩
    by_cases heq : c' = c
    · simp [setCaller, setTerminal, heq] at hi
    · exact hcalm c' ⟨i, by simpa [setCaller, setTerminal, heq] using hi⟩
  | finish ht hl =>
    exact h.calm (closed_of_setTerminal rfl (fun _ => by simp [ht, Terminal.Closed]) hclosed)

/-- In a run of timely steps nothing is ever stranded. -/
theorem noStranded_of_timely {kind : QueueKind} {s : BatchState} {es : List BatchEvent}
    (h : GuardedRun (batchStep kind) Timely new es s) : s.NoStranded := by
  have hnew : new.Orderly := ⟨sound_new, fun ⟨t, ht⟩ => by simp [new, Terminal.Closed] at ht⟩
  have hs := h.invariant (fun s e m hs hok hm => hs.step hok (.of_step hm)) hnew
  exact hs.noStranded

theorem Sound.not_won {s : BatchState} {t : Nat} {op : TerminalOp} (hs : s.Sound)
    (hclosed : s.Closed) : s.terminals t ≠ .won op := by
  intro ht
  obtain ⟨t', ht'⟩ := hclosed
  have hwin : (s.terminals t').Winner := by
    cases hx : s.terminals t' <;> simp_all [Terminal.Closed, Terminal.Winner]
  obtain rfl := hs.winner_unique t' t hwin (by simp [ht, Terminal.Winner])
  simp [ht, Terminal.Closed] at ht'

theorem closed_setTerminal {s s' : BatchState} {t : Nat} {y : Terminal} (hclosed : s.Closed)
    (hterm : s'.terminals = Function.update s.terminals t y)
    (hy : (s.terminals t).Closed → y.Closed) : s'.Closed := by
  obtain ⟨t', ht'⟩ := hclosed
  refine ⟨t', ?_⟩
  by_cases heq : t' = t
  · subst heq
    rw [hterm, Function.update_self]
    exact hy ht'
  · rwa [hterm, Function.update_of_ne heq]

theorem Sound.closed_step {kind : QueueKind} {s s' : BatchState} {e : BatchEvent} (hs : s.Sound)
    (hclosed : s.Closed) (h : BatchStep kind s e s') : s'.Closed ∧ ∀ p ∈ s.queue, p ∈ s'.queue := by
  cases h with
  | fetchIndex hc => exact ⟨hclosed, fun _ => id⟩
  | push hk hc hl => exact ⟨hclosed, fun _ => List.mem_append_left _⟩
  | lockQueue hk hc hl => exact ⟨hclosed, fun _ => id⟩
  | refuse hc => exact ⟨hclosed, fun _ => id⟩
  | enqueue hc => exact ⟨hclosed, fun _ => List.mem_append_left _⟩
  | lose ht he =>
    exact ⟨closed_setTerminal hclosed rfl (by simp [ht, Terminal.Closed]), fun _ => id⟩
  | win ht he =>
    exact ⟨closed_setTerminal hclosed rfl (by simp [ht, Terminal.Closed]), fun _ => id⟩
  | discard ht hl => exact absurd ht (hs.not_won hclosed)
  | drainEmpty ht hl hq => exact absurd ht (hs.not_won hclosed)
  | drain ht hl hq => exact absurd ht (hs.not_won hclosed)
  | timeOut hk ht => exact absurd ht (hs.not_won hclosed)
  | @settle t c r hc =>
    have hdrop : (s.terminals t).Closed → ((s.terminals t).dropSender c).Closed := by
      cases hy : s.terminals t <;> simp [Terminal.dropSender, Terminal.Closed]
    exact ⟨closed_setTerminal hclosed rfl hdrop, fun _ => id⟩
  | finish ht hl =>
    exact ⟨closed_setTerminal hclosed rfl (fun _ => by simp [Terminal.Closed]), fun _ => id⟩

/-- A command queued after a terminal call closed the queue is never resolved. -/
theorem stranded_forever {kind : QueueKind} {s s' : BatchState} {es : List BatchEvent} {c i : Nat}
    (hs : s.Sound) (hclosed : s.Closed) (hq : ⟨c, i⟩ ∈ s.queue)
    (h : run (batchStep kind) s es = some s') :
    ⟨c, i⟩ ∈ s'.queue ∧ s'.callers c = .waiting i := by
  have hstep : ∀ s e m, (s.Sound ∧ s.Closed ∧ ⟨c, i⟩ ∈ s.queue) → batchStep kind s e = some m →
      (m.Sound ∧ m.Closed ∧ ⟨c, i⟩ ∈ m.queue) := by
    rintro s e m ⟨hs, hclosed, hq⟩ hm
    have hh := hs.closed_step hclosed (.of_step hm)
    exact ⟨hs.step (.of_step hm), hh.1, hh.2 _ hq⟩
  obtain ⟨hs', -, hq'⟩ := run_invariant hstep ⟨hs, hclosed, hq⟩ h
  exact ⟨hq', hs'.queue_waiting _ hq'⟩

def answeredRun : List BatchEvent :=
  [.fetchIndex 0, .push 0, .compareExchange 0 .execute, .drain 0, .settle 0 0 (.ok .null),
    .finish 0 false]

theorem noStranded_answeredRun : ∃ s, run (batchStep .inMemory) new answeredRun = some s ∧
    (s.terminals 0).Returned ∧ s.NoStranded := by
  obtain ⟨s, hs, ht⟩ : ∃ s, GuardedRun (batchStep .inMemory) Timely new answeredRun s ∧
      (s.terminals 0).Returned := by
    refine ⟨_, ⟨fun ⟨t, ht⟩ => ht, _, rfl, trivial, _, rfl, trivial, _, rfl, ?_, _, rfl, trivial, _,
      rfl, trivial, _, rfl, rfl⟩, trivial⟩
    rintro c ⟨i, hi⟩
    by_cases hc : c = 0 <;> simp [setTerminal, enqueue, setCaller, new, hc] at hi
  exact ⟨s, hs.run_eq, ht, noStranded_of_timely hs⟩

/-- A command that is queued after the batch was executed waits for good. -/
theorem push_after_execute_stranded : ∃ s,
    run (batchStep .inMemory) new
      [.compareExchange 0 .execute, .drain 0, .fetchIndex 0, .push 0] = some s ∧
    (s.terminals 0).Returned ∧ s.queue = [⟨0, 0⟩] ∧ s.callers 0 = .waiting 0 ∧ ¬ s.NoStranded := by
  refine ⟨_, rfl, trivial, rfl, rfl, fun hh => ?_⟩
  exact absurd (hh 0 trivial).1 (by decide)

end BatchState

end Redisson
