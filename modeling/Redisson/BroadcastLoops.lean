import Redisson.LabelledRuns

/-! A loop over the messages of a bounded broadcast channel, next to whatever else goes on. The
channel keeps the last `capacity` messages. A receiver that has fallen further behind is told how
many it missed and moved on to the oldest one left. -/

namespace BroadcastLoops

open LabelledRuns

inductive Received (α : Type*)
  | message (a : α)
  | lagged (missed : Nat)
  | closed

/-- What a receiver gets whose next message is the one at position `next`; `none` while it
waits. -/
def recv {α : Type*} (capacity : Nat) (sent : List α) (closed : Bool) (next : Nat) :
    Option (Received α) :=
  if next + capacity < sent.length then some (.lagged (sent.length - capacity - next))
  else
    match sent[next]? with
    | some a => some (.message a)
    | none => if closed then some .closed else none

/-- A loop and its surroundings: `step` is what else happens there, `send` what changes as a
message is sent and `body` what the loop does with it, each knowing its position. -/
structure Loop (σ ε α β : Type*) where
  capacity : Nat
  stopsOnLag : Bool
  step : σ → ε → Option σ
  send : σ → Nat → α → Option σ
  body : σ → Nat → α → σ × β

inductive Event (ε α : Type*)
  | other (e : ε)
  | start
  | send (a : α)
  | close
  | poll

/-- The receiver is made as the loop starts, and gets what is sent from then on. -/
inductive Phase
  | spawned
  | listening (next : Nat)
  | ended

inductive Outcome (β : Type*)
  | handled (b : β)
  | missed

namespace Outcome

def isHandled {β : Type*} : Outcome β → Bool
  | handled _ => true
  | missed => false

end Outcome

structure State (σ α β : Type*) where
  world : σ
  sent : List α
  closed : Bool
  phase : Phase
  log : List (Nat × Outcome β)

variable {σ ε α β : Type*}

namespace State

def new (w : σ) : State σ α β := ⟨w, [], false, .spawned, []⟩

def handled (s : State σ α β) (k : Nat) : Bool := s.log.any fun x => x.1 == k && x.2.isHandled

/-- The message at a position, unless the loop has handled it. -/
def waiting (s : State σ α β) (k : Nat) : Option α := if s.handled k then none else s.sent[k]?

def receive (s : State σ α β) (next : Nat) (r : σ × β) : State σ α β :=
  { s with
    world := r.1
    phase := .listening (next + 1)
    log := s.log ++ [(next, .handled r.2)] }

def lag (s : State σ α β) (stops : Bool) (next missed : Nat) : State σ α β :=
  { s with
    phase := if stops then .ended else .listening (next + missed)
    log := s.log ++ (List.range' next missed).map fun k => (k, .missed) }

end State

def step (L : Loop σ ε α β) (s : State σ α β) : Event ε α → Option (State σ α β)
  | .other e => (L.step s.world e).map fun w => { s with world := w }
  | .start =>
    match s.phase with
    | .spawned => some { s with phase := .listening s.sent.length }
    | _ => none
  | .send a =>
    if s.closed then none
    else (L.send s.world s.sent.length a).map fun w => { s with world := w, sent := s.sent ++ [a] }
  | .close => some { s with closed := true }
  | .poll =>
    match s.phase with
    | .listening next =>
      match recv L.capacity s.sent s.closed next with
      | some (.message a) => some (s.receive next (L.body s.world next a))
      | some (.lagged missed) => some (s.lag L.stopsOnLag next missed)
      | some .closed => some { s with phase := .ended }
      | none => none
    | _ => none

inductive Step (L : Loop σ ε α β) (s : State σ α β) : Event ε α → State σ α β → Prop
  | other {e : ε} {w : σ} (h : L.step s.world e = some w) :
      Step L s (.other e) { s with world := w }
  | start (h : s.phase = .spawned) : Step L s .start { s with phase := .listening s.sent.length }
  | send {a : α} {w : σ} (hopen : s.closed = false) (h : L.send s.world s.sent.length a = some w) :
      Step L s (.send a) { s with world := w, sent := s.sent ++ [a] }
  | close : Step L s .close { s with closed := true }
  | receive {next : Nat} {a : α} (h : s.phase = .listening next)
      (hroom : s.sent.length ≤ next + L.capacity) (ha : s.sent[next]? = some a) :
      Step L s .poll (s.receive next (L.body s.world next a))
  | lag {next : Nat} (h : s.phase = .listening next) (hlag : next + L.capacity < s.sent.length) :
      Step L s .poll (s.lag L.stopsOnLag next (s.sent.length - L.capacity - next))
  | finish {next : Nat} (h : s.phase = .listening next) (hclosed : s.closed = true)
      (hall : s.sent.length ≤ next) : Step L s .poll { s with phase := .ended }

theorem recv_eq_message {capacity next : Nat} {sent : List α} {closed : Bool} {a : α}
    (h : recv capacity sent closed next = some (.message a)) :
    sent.length ≤ next + capacity ∧ sent[next]? = some a := by
  unfold recv at h
  split at h
  · cases h
  · next hroom =>
    refine ⟨Nat.le_of_not_lt hroom, ?_⟩
    split at h
    · next b hb =>
      cases h
      exact hb
    · split at h <;> cases h

theorem recv_eq_lagged {capacity next missed : Nat} {sent : List α} {closed : Bool}
    (h : recv capacity sent closed next = some (.lagged missed)) :
    next + capacity < sent.length ∧ missed = sent.length - capacity - next := by
  unfold recv at h
  split at h
  · next hlag =>
    cases h
    exact ⟨hlag, rfl⟩
  · split at h
    · cases h
    · split at h <;> cases h

theorem recv_eq_closed {capacity next : Nat} {sent : List α} {closed : Bool}
    (h : recv capacity sent closed next = some .closed) : closed = true ∧ sent.length ≤ next := by
  unfold recv at h
  split at h
  · cases h
  · split at h
    · cases h
    · next hnone =>
      split at h
      · next hclosed => exact ⟨hclosed, List.getElem?_eq_none_iff.mp hnone⟩
      · cases h

theorem Step.of_step {L : Loop σ ε α β} {s s' : State σ α β} {e : Event ε α}
    (h : step L s e = some s') : Step L s e s' := by
  cases e with
  | other e =>
    obtain ⟨w, hw, rfl⟩ := Option.map_eq_some_iff.mp h
    exact .other hw
  | start =>
    simp only [step] at h
    split at h
    · next hp =>
      cases h
      exact .start hp
    · cases h
  | send a =>
    simp only [step] at h
    split at h
    · cases h
    · next hopen =>
      obtain ⟨w, hw, rfl⟩ := Option.map_eq_some_iff.mp h
      exact .send (Bool.eq_false_iff.mpr hopen) hw
  | close =>
    cases h
    exact .close
  | poll =>
    simp only [step] at h
    split at h
    · next next hp =>
      split at h
      · next a hr =>
        cases h
        obtain ⟨hroom, ha⟩ := recv_eq_message hr
        exact .receive hp hroom ha
      · next missed hr =>
        cases h
        obtain ⟨hlag, rfl⟩ := recv_eq_lagged hr
        exact .lag hp hlag
      · next hr =>
        cases h
        obtain ⟨hclosed, hall⟩ := recv_eq_closed hr
        exact .finish hp hclosed hall
      · cases h
    · cases h

/-! What the log holds lies before the receiver and before the next message. -/

namespace State

structure Numbered (s : State σ α β) : Prop where
  below : ∀ x ∈ s.log, x.1 < s.sent.length
  next : ∀ n, s.phase = .listening n → n ≤ s.sent.length ∧ ∀ x ∈ s.log, x.1 < n

theorem numbered_new (w : σ) : (new w : State σ α β).Numbered := ⟨nofun, nofun⟩

theorem numbered_step {L : Loop σ ε α β} {s s' : State σ α β} {e : Event ε α} (hs : s.Numbered)
    (h : Step L s e s') : s'.Numbered := by
  cases h with
  | other h => exact ⟨hs.below, hs.next⟩
  | start h =>
    refine ⟨hs.below, fun n hn => ?_⟩
    cases hn
    exact ⟨Nat.le_refl _, hs.below⟩
  | @send a w hopen h =>
    have hlen : (s.sent ++ [a]).length = s.sent.length + 1 := List.length_append
    refine ⟨fun x hx => ?_, fun n hn => ⟨?_, (hs.next n hn).2⟩⟩
    · exact Nat.lt_of_lt_of_eq (Nat.lt_succ_of_lt (hs.below x hx)) hlen.symm
    · exact hlen ▸ Nat.le_succ_of_le (hs.next n hn).1
  | close => exact ⟨hs.below, hs.next⟩
  | @receive next a hp hroom ha =>
    obtain ⟨hlt, -⟩ := List.getElem?_eq_some_iff.mp ha
    have hlog : ∀ x ∈ (s.receive next (L.body s.world next a)).log, x.1 < next + 1 := by
      intro x hx
      rcases List.mem_append.mp hx with hx | hx
      · exact Nat.lt_succ_of_lt ((hs.next next hp).2 x hx)
      · rw [List.mem_singleton.mp hx]
        exact Nat.lt_succ_self next
    refine ⟨fun x hx => Nat.lt_of_lt_of_le (hlog x hx) hlt, fun n hn => ?_⟩
    cases hn
    exact ⟨hlt, hlog⟩
  | @lag next hp hlag =>
    have hlog : ∀ x ∈ (s.lag L.stopsOnLag next (s.sent.length - L.capacity - next)).log,
        x.1 < s.sent.length - L.capacity := by
      intro x hx
      rcases List.mem_append.mp hx with hx | hx
      · have := (hs.next next hp).2 x hx
        omega
      · obtain ⟨k, hk, rfl⟩ := List.mem_map.mp hx
        have := List.mem_range'_1.mp hk
        dsimp only
        omega
    refine ⟨fun x hx => Nat.lt_of_lt_of_le (hlog x hx) (Nat.sub_le _ _), fun n hn => ?_⟩
    simp only [lag] at hn
    split at hn
    · cases hn
    · cases hn
      have hnext : next + (s.sent.length - L.capacity - next) = s.sent.length - L.capacity := by
        omega
      rw [hnext]
      exact ⟨Nat.sub_le _ _, hlog⟩
  | finish hp hclosed hall => exact ⟨hs.below, nofun⟩

theorem handled_eq_false {s : State σ α β} {k : Nat} (h : ∀ x ∈ s.log, x.1 ≠ k) :
    s.handled k = false := by
  simp only [handled, List.any_eq_false, Bool.and_eq_true, beq_iff_eq, not_and]
  exact fun x hx hk => absurd hk (h x hx)

theorem waiting_of_length_le {s : State σ α β} {k : Nat} (h : s.sent.length ≤ k) :
    s.waiting k = none := by
  unfold waiting
  split
  · rfl
  · exact List.getElem?_eq_none_iff.mpr h

theorem waiting_send {s : State σ α β} (hs : s.Numbered) (w : σ) (a : α) (k : Nat) :
    ({ s with world := w, sent := s.sent ++ [a] } : State σ α β).waiting k =
      if k = s.sent.length then some a else s.waiting k := by
  have hhandled : ({ s with world := w, sent := s.sent ++ [a] } : State σ α β).handled k =
      s.handled k := rfl
  unfold waiting
  rw [hhandled]
  by_cases hk : k = s.sent.length
  · have hfresh : s.handled k = false :=
      handled_eq_false fun x hx => hk ▸ Nat.ne_of_lt (hs.below x hx)
    simp [hk ▸ hfresh, hk]
  · rw [if_neg hk]
    split
    · rfl
    · rcases Nat.lt_or_gt_of_ne hk with hlt | hgt
      · exact List.getElem?_append_left hlt
      · have hlen : (s.sent ++ [a]).length ≤ k := Nat.le_trans (Nat.le_of_eq List.length_append) hgt
        rw [List.getElem?_eq_none_iff.mpr hlen, List.getElem?_eq_none_iff.mpr (Nat.le_of_lt hgt)]

theorem handled_receive (s : State σ α β) (next : Nat) (r : σ × β) (k : Nat) :
    (s.receive next r).handled k = (s.handled k || next == k) := by
  simp [handled, receive, Outcome.isHandled]

theorem handled_lag (s : State σ α β) (stops : Bool) (next missed k : Nat) :
    (s.lag stops next missed).handled k = s.handled k := by
  simp [handled, lag, Outcome.isHandled]

theorem waiting_receive (s : State σ α β) (next : Nat) (r : σ × β) (k : Nat) :
    (s.receive next r).waiting k = if k = next then none else s.waiting k := by
  unfold waiting
  rw [handled_receive]
  by_cases hk : k = next
  · simp [hk]
  · simp [hk, Ne.symm hk, receive]

theorem waiting_lag (s : State σ α β) (stops : Bool) (next missed k : Nat) :
    (s.lag stops next missed).waiting k = s.waiting k := by
  unfold waiting
  rw [handled_lag]
  rfl

theorem waiting_next {s : State σ α β} (hs : s.Numbered) {next : Nat} {a : α}
    (hp : s.phase = .listening next) (ha : s.sent[next]? = some a) : s.waiting next = some a := by
  unfold waiting
  rw [handled_eq_false fun x hx => Nat.ne_of_lt ((hs.next next hp).2 x hx)]
  exact ha

end State

/-! A receiver that is there before the first message and never more than the capacity behind. -/

/-- A message is sent while the receiver is there and the channel still has room for it. -/
def InTime (capacity : Nat) (s : State σ α β) : Event ε α → Prop
  | .send _ => ∃ next, s.phase = .listening next ∧ s.sent.length < next + capacity
  | _ => True

/-- Whatever lies before the receiver has been handled, and the channel holds all the rest. -/
structure State.UpToDate (capacity : Nat) (s : State σ α β) : Prop where
  numbered : s.Numbered
  spawned : s.phase = .spawned → s.sent = []
  kept : ∀ next, s.phase = .listening next → s.sent.length ≤ next + capacity
  passed : ∀ next, s.phase = .listening next → ∀ k < next, s.waiting k = none
  ended : s.phase = .ended → ∀ k, s.waiting k = none

namespace State

theorem upToDate_new (capacity : Nat) (w : σ) : (new w : State σ α β).UpToDate capacity where
  numbered := numbered_new w
  spawned _ := rfl
  kept := nofun
  passed := nofun
  ended := nofun

theorem upToDate_step {L : Loop σ ε α β} {s s' : State σ α β} {e : Event ε α}
    (hs : s.UpToDate L.capacity) (he : InTime L.capacity s e) (h : Step L s e s') :
    s'.UpToDate L.capacity := by
  have hnumbered := numbered_step hs.numbered h
  cases h with
  | other h => exact ⟨hnumbered, hs.spawned, hs.kept, hs.passed, hs.ended⟩
  | start hp =>
    have hnil := hs.spawned hp
    refine ⟨hnumbered, nofun, fun next hn => ?_, fun next hn k hk => ?_, nofun⟩
    · cases hn
      exact Nat.le_add_right _ _
    · cases hn
      rw [hnil] at hk
      cases hk
  | @send a w hopen h =>
    obtain ⟨n, hp, hroom⟩ := he
    have hlast : ∀ next, s.phase = .listening next → next = n := by
      intro next hn
      rw [hp] at hn
      cases hn
      rfl
    refine ⟨hnumbered, fun hsp => ?_, fun next hn => ?_, fun next hn k hk => ?_, fun hend => ?_⟩
    · exact nomatch hp.symm.trans hsp
    · obtain rfl := hlast next hn
      exact Nat.le_trans (Nat.le_of_eq List.length_append) hroom
    · have hbound := (hs.numbered.next next hn).1
      rw [waiting_send hs.numbered w a k, if_neg (by omega)]
      exact hs.passed next hn k hk
    · exact nomatch hp.symm.trans hend
  | close => exact ⟨hnumbered, hs.spawned, hs.kept, hs.passed, hs.ended⟩
  | @receive next a hp hroom ha =>
    refine ⟨hnumbered, nofun, fun m hm => ?_, fun m hm k hk => ?_, nofun⟩
    · cases hm
      have := hs.kept next hp
      show s.sent.length ≤ next + 1 + L.capacity
      omega
    · cases hm
      rw [waiting_receive]
      split
      · rfl
      · exact hs.passed next hp k (by omega)
  | lag hp hlag => exact absurd (hs.kept _ hp) (by omega)
  | @finish next hp hclosed hall =>
    refine ⟨hnumbered, nofun, nofun, nofun, fun _ k => ?_⟩
    by_cases hk : k < next
    · exact hs.passed next hp k hk
    · exact waiting_of_length_le (Nat.le_trans hall (Nat.le_of_not_lt hk))

end State

/-! A loop that stops as it lags. -/

theorem ended_of_missed {L : Loop σ ε α β} (hL : L.stopsOnLag = true) {w : σ} {s : State σ α β}
    {es : List (Event ε α)} (h : run (step L) (State.new w) es = some s) {k : Nat}
    (hk : (k, .missed) ∈ s.log) : s.phase = .ended := by
  have hkeep : ∀ m e m', (∀ k, (k, .missed) ∈ m.log → m.phase = .ended) → step L m e = some m' →
      ∀ k, (k, .missed) ∈ m'.log → m'.phase = .ended := by
    intro m e m' hm hstep k hk
    cases Step.of_step hstep with
    | start hp => exact absurd (hm k hk) (by simp [hp])
    | receive hp hroom ha =>
      rcases List.mem_append.mp hk with hk | hk
      · exact absurd (hm k hk) (by simp [hp])
      · cases List.mem_singleton.mp hk
    | lag hp hlag => simp [State.lag, hL]
    | finish hp hclosed hall => rfl
    | _ => exact hm k hk
  exact @run_invariant _ _ _ (fun m => ∀ k, (k, .missed) ∈ m.log → m.phase = .ended) _ _ _ hkeep
    nofun h k hk

/-- A loop that has ended leaves the rest to its surroundings. -/
theorem ended_step {L : Loop σ ε α β} {s s' : State σ α β} {e : Event ε α} (hs : s.phase = .ended)
    (h : Step L s e s') : s'.phase = .ended ∧
      (s'.world = s.world ∨ (∃ x, e = .other x ∧ L.step s.world x = some s'.world) ∨
        ∃ a, e = .send a ∧ L.send s.world s.sent.length a = some s'.world) := by
  cases h with
  | other h => exact ⟨hs, .inr (.inl ⟨_, rfl, h⟩)⟩
  | send hopen h => exact ⟨hs, .inr (.inr ⟨_, rfl, h⟩)⟩
  | close => exact ⟨hs, .inl rfl⟩
  | start hp => exact nomatch hp.symm.trans hs
  | receive hp => exact nomatch hp.symm.trans hs
  | lag hp => exact nomatch hp.symm.trans hs
  | finish hp => exact nomatch hp.symm.trans hs

/-! The log of a loop that goes on after it has lagged. -/

/-- Every message from `first` on up to the receiver is in the log, once and in order. -/
structure State.Accounted (L : Loop σ ε α β) (first : Nat) (s : State σ α β) : Prop where
  positions : s.log.map Prod.fst = List.range' first s.log.length
  begun : s.phase ≠ .spawned
  next : ∀ n, s.phase = .listening n → n = first + s.log.length
  missed : ∀ k, (k, .missed) ∈ s.log → k + L.capacity < s.sent.length
  ended : s.phase = .ended → s.closed = true ∧ s.sent.length ≤ first + s.log.length

/-- What the log has from `first` on is what the body did in a world with `P`. -/
def State.Sound (L : Loop σ ε α β) (P : σ → Prop) (first : Nat) (s : State σ α β) : Prop :=
  ∀ k b, first ≤ k → (k, .handled b) ∈ s.log →
    ∃ w a, P w ∧ s.sent[k]? = some a ∧ (L.body w k a).2 = b

namespace State

variable {L : Loop σ ε α β} {s s' : State σ α β} {e : Event ε α} {first : Nat}

theorem accounted_start {s : State σ α β} (hp : s.phase = .listening first) (hlog : s.log = []) :
    s.Accounted L first where
  positions := by rw [hlog]; rfl
  begun h := nomatch hp.symm.trans h
  next n hn := by
    rw [hp] at hn
    cases hn
    rw [hlog]
    rfl
  missed k hk := by
    rw [hlog] at hk
    cases hk
  ended h := nomatch hp.symm.trans h

theorem Accounted.positions_append (hs : s.Accounted L first) {next : Nat}
    (hp : s.phase = .listening next) {xs : List (Nat × Outcome β)}
    (hxs : xs.map Prod.fst = List.range' next xs.length) :
    (s.log ++ xs).map Prod.fst = List.range' first (s.log ++ xs).length := by
  rw [List.map_append, hs.positions, hxs, hs.next next hp, List.length_append,
    List.range'_append_1]

theorem accounted_step (hL : L.stopsOnLag = false) (hs : s.Accounted L first)
    (h : Step L s e s') : s'.Accounted L first := by
  cases h with
  | other h => exact ⟨hs.positions, hs.begun, hs.next, hs.missed, hs.ended⟩
  | start hp => exact absurd hp hs.begun
  | @send a w hopen h =>
    refine ⟨hs.positions, hs.begun, hs.next, fun k hk => ?_, fun hend => ?_⟩
    · have hlen : (s.sent ++ [a]).length = s.sent.length + 1 := List.length_append
      exact Nat.lt_of_lt_of_eq (Nat.lt_succ_of_lt (hs.missed k hk)) hlen.symm
    · rw [(hs.ended hend).1] at hopen
      cases hopen
  | close => exact ⟨hs.positions, hs.begun, hs.next, hs.missed, fun hend => ⟨rfl, (hs.ended hend).2⟩⟩
  | @receive next a hp hroom ha =>
    refine ⟨hs.positions_append hp rfl, nofun, fun n hn => ?_, fun k hk => ?_, nofun⟩
    · cases hn
      rw [hs.next next hp]
      simp [receive, Nat.add_assoc]
    · rcases List.mem_append.mp hk with hk | hk
      · exact hs.missed k hk
      · cases List.mem_singleton.mp hk
  | @lag next hp hlag =>
    have hphase : (s.lag L.stopsOnLag next (s.sent.length - L.capacity - next)).phase =
        .listening (next + (s.sent.length - L.capacity - next)) := by
      simp [lag, hL]
    refine ⟨?_, ?_, fun n hn => ?_, fun k hk => ?_, fun hend => nomatch hphase.symm.trans hend⟩
    · exact hs.positions_append hp (by simp [Function.comp_def])
    · rw [hphase]
      exact nofun
    · rw [hphase] at hn
      cases hn
      rw [hs.next next hp]
      simp [lag, Nat.add_assoc]
    · rcases List.mem_append.mp hk with hk | hk
      · exact hs.missed k hk
      · obtain ⟨j, hj, hjk⟩ := List.mem_map.mp hk
        cases hjk
        have := List.mem_range'_1.mp hj
        show k + L.capacity < s.sent.length
        omega
  | @finish next hp hclosed hall =>
    refine ⟨hs.positions, nofun, nofun, hs.missed, fun _ => ⟨hclosed, ?_⟩⟩
    rw [← hs.next next hp]
    exact hall

theorem sound_step {P : σ → Prop} (hs : s.Sound L P first) (hP : P s.world) (h : Step L s e s') :
    s'.Sound L P first := by
  cases h with
  | @send a w hopen h =>
    intro k b hk hb
    obtain ⟨w, a', hw, ha', hbody⟩ := hs k b hk hb
    obtain ⟨hlt, -⟩ := List.getElem?_eq_some_iff.mp ha'
    exact ⟨w, a', hw, (List.getElem?_append_left hlt).trans ha', hbody⟩
  | @receive next a hp hroom ha =>
    intro k b hk hb
    rcases List.mem_append.mp hb with hb | hb
    · exact hs k b hk hb
    · cases List.mem_singleton.mp hb
      exact ⟨s.world, a, hP, ha, rfl⟩
  | @lag next hp hlag =>
    intro k b hk hb
    rcases List.mem_append.mp hb with hb | hb
    · exact hs k b hk hb
    · obtain ⟨j, -, hjk⟩ := List.mem_map.mp hb
      cases hjk
  | _ => exact hs

theorem Accounted.ordered (hs : s.Accounted L first) : s.log.Pairwise fun x y => x.1 < y.1 := by
  refine List.pairwise_map.mp ?_
  rw [hs.positions]
  exact List.pairwise_lt_range'

theorem Accounted.exists_outcome (hs : s.Accounted L first) {k : Nat} (hfirst : first ≤ k)
    (hk : k < first + s.log.length) : ∃ o, (k, o) ∈ s.log := by
  have hmem : k ∈ s.log.map Prod.fst := by
    rw [hs.positions]
    exact List.mem_range'_1.mpr ⟨hfirst, hk⟩
  obtain ⟨⟨j, o⟩, hx, rfl⟩ := List.mem_map.mp hmem
  exact ⟨o, hx⟩

end State

/-- Once the loop has begun, some position is the first of its log. -/
theorem exists_accounted {L : Loop σ ε α β} (hL : L.stopsOnLag = false) {w : σ} {s : State σ α β}
    {es : List (Event ε α)} (h : run (step L) (State.new w) es = some s)
    (hbegun : s.phase ≠ .spawned) : ∃ first, s.Accounted L first := by
  have hkeep : ∀ m e m', (m.phase = .spawned ∧ m.log = [] ∨ ∃ first, m.Accounted L first) →
      step L m e = some m' → m'.phase = .spawned ∧ m'.log = [] ∨ ∃ first, m'.Accounted L first := by
    rintro m e m' (⟨hp, hlog⟩ | ⟨first, hm⟩) hstep
    · cases Step.of_step hstep with
      | start hp => exact .inr ⟨_, State.accounted_start rfl hlog⟩
      | receive hp' => exact nomatch hp.symm.trans hp'
      | lag hp' => exact nomatch hp.symm.trans hp'
      | finish hp' => exact nomatch hp.symm.trans hp'
      | _ => exact .inl ⟨hp, hlog⟩
    · exact .inr ⟨first, State.accounted_step hL hm (Step.of_step hstep)⟩
  have hs := @run_invariant _ _ _
    (fun m => m.phase = .spawned ∧ m.log = [] ∨ ∃ first, m.Accounted L first) _ _ _ hkeep
    (.inl ⟨rfl, rfl⟩) h
  exact hs.resolve_left fun hspawned => hbegun hspawned.1

theorem accounted_of_run {L : Loop σ ε α β} (hL : L.stopsOnLag = false) {first : Nat}
    {s t : State σ α β} {es : List (Event ε α)} (hs : s.Accounted L first)
    (h : run (step L) s es = some t) : t.Accounted L first :=
  run_invariant (fun _ _ _ hm hstep => State.accounted_step hL hm (Step.of_step hstep)) hs h

theorem getElem?_of_run {L : Loop σ ε α β} {s t : State σ α β} {es : List (Event ε α)} {k : Nat}
    {a : α} (ha : s.sent[k]? = some a) (h : run (step L) s es = some t) : t.sent[k]? = some a := by
  have hkeep : ∀ m e m', m.sent[k]? = some a → step L m e = some m' → m'.sent[k]? = some a := by
    intro m e m' hm hstep
    cases Step.of_step hstep with
    | send hopen h =>
      obtain ⟨hlt, -⟩ := List.getElem?_eq_some_iff.mp hm
      exact (List.getElem?_append_left hlt).trans hm
    | _ => exact hm
  exact @run_invariant _ _ _ (fun m => m.sent[k]? = some a) _ _ _ hkeep ha h

theorem numbered_of_run {L : Loop σ ε α β} {w : σ} {s : State σ α β} {es : List (Event ε α)}
    (h : run (step L) (State.new w) es = some s) : s.Numbered :=
  run_invariant (fun _ _ _ hm hstep => State.numbered_step hm (Step.of_step hstep))
    (State.numbered_new w) h

/-- A message that has been sent to the receiver of a loop is handled in a world with `P`, or was
overwritten before the loop came to it, or is still to come. -/
theorem outcome_of_run {L : Loop σ ε α β} (hL : L.stopsOnLag = false) {P : σ → Prop} {first k : Nat}
    {a : α} {s t : State σ α β} {es : List (Event ε α)} (hs : s.Accounted L first)
    (ha : s.sent[k]? = some a) (hk : first + s.log.length ≤ k)
    (hrun : GuardedRun (step L) (fun m _ => P m.world) s es t) :
    (∃ w, P w ∧ (k, .handled (L.body w k a).2) ∈ t.log) ∨
      (k, .missed) ∈ t.log ∧ k + L.capacity < t.sent.length ∨
      ∃ n, t.phase = .listening n ∧ n ≤ k := by
  have hsound : s.Sound L P k := by
    intro j b hj hb
    have hmem := List.mem_map_of_mem (f := Prod.fst) hb
    rw [hs.positions] at hmem
    have := List.mem_range'_1.mp hmem
    omega
  have hkeep : ∀ m e m', m.Accounted L first ∧ m.Sound L P k → P m.world → step L m e = some m' →
      m'.Accounted L first ∧ m'.Sound L P k := fun m e m' hm hP hstep =>
    ⟨State.accounted_step hL hm.1 (Step.of_step hstep),
      State.sound_step hm.2 hP (Step.of_step hstep)⟩
  obtain ⟨haccounted, hsoundAfter⟩ := GuardedRun.invariant hkeep ⟨hs, hsound⟩ hrun
  have hat : t.sent[k]? = some a := getElem?_of_run ha hrun.run_eq
  have hlogged : k < first + t.log.length → (∃ w, P w ∧ (k, .handled (L.body w k a).2) ∈ t.log) ∨
      (k, .missed) ∈ t.log ∧ k + L.capacity < t.sent.length := by
    intro hlt
    obtain ⟨o, ho⟩ := haccounted.exists_outcome (Nat.le_trans (Nat.le_add_right _ _) hk) hlt
    cases o with
    | handled b =>
      obtain ⟨w, a', hw, ha', rfl⟩ := hsoundAfter k b (Nat.le_refl k) ho
      cases hat.symm.trans ha'
      exact .inl ⟨w, hw, ho⟩
    | missed => exact .inr ⟨ho, haccounted.missed k ho⟩
  cases hp : t.phase with
  | spawned => exact absurd hp haccounted.begun
  | listening n =>
    by_cases hn : n ≤ k
    · exact .inr (.inr ⟨n, rfl, hn⟩)
    · have hlt : k < first + t.log.length := haccounted.next n hp ▸ Nat.lt_of_not_le hn
      rcases hlogged hlt with h | h
      · exact .inl h
      · exact .inr (.inl h)
  | ended =>
    obtain ⟨hlen, -⟩ := List.getElem?_eq_some_iff.mp hat
    rcases hlogged (Nat.lt_of_lt_of_le hlen (haccounted.ended hp).2) with h | h
    · exact .inl h
    · exact .inr (.inl h)

end BroadcastLoops
