import Redisson.LabelledRuns

/-! A value behind a lock that is computed when it is first needed and shared from then on.
Whoever computes it may fail, or leave in the middle. -/

namespace SingleFlight

open LabelledRuns

variable {α ε : Type*}

inductive Client (α ε : Type*)
  | idle
  | computing
  | got (a : α)
  | failed (e : ε)
  | gone

structure State (α ε : Type*) where
  cell : Option α
  lock : Option Nat
  started : Nat
  lost : Nat
  clients : Nat → Client α ε

inductive Event (α ε : Type*)
  | acquire (c : Nat)
  | finish (c : Nat) (r : Except ε α)
  | leave (c : Nat)

namespace State

def new : State α ε := ⟨none, none, 0, 0, fun _ => .idle⟩

def set (s : State α ε) (c : Nat) (x : Client α ε) : State α ε :=
  { s with clients := Function.update s.clients c x }

def compute (s : State α ε) (c : Nat) : State α ε :=
  { s.set c .computing with lock := some c, started := s.started + 1 }

def store (s : State α ε) (c : Nat) (a : α) : State α ε :=
  { s.set c (.got a) with cell := some a, lock := none }

def lose (s : State α ε) (c : Nat) (x : Client α ε) : State α ε :=
  { s.set c x with lock := none, lost := s.lost + 1 }

end State

def step (s : State α ε) : Event α ε → Option (State α ε)
  | .acquire c =>
    match s.clients c, s.lock, s.cell with
    | .idle, none, some a => some (s.set c (.got a))
    | .idle, none, none => some (s.compute c)
    | _, _, _ => none
  | .finish c r =>
    match s.clients c, r with
    | .computing, .ok a => some (s.store c a)
    | .computing, .error e => some (s.lose c (.failed e))
    | _, _ => none
  | .leave c =>
    match s.clients c with
    | .idle => some (s.set c .gone)
    | .computing => some (s.lose c .gone)
    | _ => none

inductive Step (s : State α ε) : Event α ε → State α ε → Prop
  | share {c : Nat} {a : α} (hc : s.clients c = .idle) (hl : s.lock = none) (ha : s.cell = some a) :
      Step s (.acquire c) (s.set c (.got a))
  | compute {c : Nat} (hc : s.clients c = .idle) (hl : s.lock = none) (ha : s.cell = none) :
      Step s (.acquire c) (s.compute c)
  | store {c : Nat} {a : α} (hc : s.clients c = .computing) : Step s (.finish c (.ok a)) (s.store c a)
  | fail {c : Nat} {e : ε} (hc : s.clients c = .computing) :
      Step s (.finish c (.error e)) (s.lose c (.failed e))
  | pass {c : Nat} (hc : s.clients c = .idle) : Step s (.leave c) (s.set c .gone)
  | abandon {c : Nat} (hc : s.clients c = .computing) : Step s (.leave c) (s.lose c .gone)

theorem Step.of_step {s s' : State α ε} {e : Event α ε} (h : step s e = some s') : Step s e s' := by
  cases e with
  | acquire c =>
    simp only [step] at h
    split at h
    · next hc hl ha => cases h; exact .share hc hl ha
    · next hc hl ha => cases h; exact .compute hc hl ha
    · cases h
  | finish c r =>
    simp only [step] at h
    split at h
    · next hc => cases h; exact .store hc
    · next hc => cases h; exact .fail hc
    · cases h
  | leave c =>
    simp only [step] at h
    split at h
    · next hc => cases h; exact .pass hc
    · next hc => cases h; exact .abandon hc
    · cases h

/-- The lock is held by the one client that computes, all values handed out are the one of the
cell, and each computation that was started is running, has filled the cell or is lost. -/
structure Invariant (s : State α ε) : Prop where
  holder : ∀ c, s.clients c = .computing ↔ s.lock = some c
  shared : ∀ c a, s.clients c = .got a → s.cell = some a
  idle : s.cell.isSome → s.lock = none
  count : s.started = s.lost + s.lock.toList.length + s.cell.toList.length

namespace Invariant

variable {s s' : State α ε}

theorem new : Invariant (.new : State α ε) :=
  ⟨fun c => by simp [State.new], fun c a h => by simp [State.new] at h, fun h => rfl, rfl⟩

theorem set (h : Invariant s) {c : Nat} {x : Client α ε} (hc : s.clients c = .idle)
    (hx : x ≠ .computing) (hgot : ∀ a, x = .got a → s.cell = some a) : Invariant (s.set c x) := by
  refine ⟨fun d => ?_, fun d a hd => ?_, h.idle, h.count⟩
  · by_cases hd : d = c
    · subst hd
      simp [State.set, hx, ← h.holder, hc]
    · simp [State.set, hd, h.holder]
  · by_cases hdc : d = c
    · subst hdc
      exact hgot a (by simpa [State.set] using hd)
    · exact h.shared d a (by simpa [State.set, hdc] using hd)

theorem compute (h : Invariant s) {c : Nat} (hl : s.lock = none) (ha : s.cell = none) :
    Invariant (s.compute c) := by
  have hnone : ∀ d, s.clients d ≠ .computing := fun d hd => by simp [h.holder, hl] at hd
  refine ⟨fun d => ?_, fun d a hd => ?_, fun hcell => ?_, ?_⟩
  · by_cases hd : d = c
    · simp [State.compute, State.set, hd]
    · simp [State.compute, State.set, hd, hnone, Ne.symm hd]
  · by_cases hdc : d = c
    · simp [State.compute, State.set, hdc] at hd
    · exact h.shared d a (by simpa [State.compute, State.set, hdc] using hd)
  · simp [State.compute, State.set, ha] at hcell
  · have hcount := h.count
    simp [State.compute, State.set, ha, hl] at hcount ⊢
    omega

theorem release (h : Invariant s) {c d : Nat} {x : Client α ε} (hc : s.clients c = .computing)
    (hx : x ≠ .computing) : Function.update s.clients c x d ≠ .computing := by
  by_cases hd : d = c
  · simpa [hd] using hx
  · intro hcomp
    rw [Function.update_of_ne hd, h.holder, (h.holder c).mp hc] at hcomp
    exact hd (Option.some.inj hcomp).symm

theorem store (h : Invariant s) {c : Nat} {a : α} (hc : s.clients c = .computing) :
    Invariant (s.store c a) := by
  have hlock := (h.holder c).mp hc
  have hcell : s.cell = none := by
    cases hs : s.cell with
    | none => rfl
    | some b => simp [h.idle (by simp [hs])] at hlock
  refine ⟨fun d => ?_, fun d b hd => ?_, fun _ => rfl, ?_⟩
  · simp [State.store, State.set, h.release hc]
  · by_cases hdc : d = c
    · simpa [State.store, State.set, hdc] using hd
    · have hb := h.shared d b (by simpa [State.store, State.set, hdc] using hd)
      simp [hcell] at hb
  · have hcount := h.count
    simp [State.store, State.set, hcell, hlock] at hcount ⊢
    omega

theorem lose (h : Invariant s) {c : Nat} {x : Client α ε} (hc : s.clients c = .computing)
    (hx : x ≠ .computing) (hgot : ∀ a, x ≠ .got a) : Invariant (s.lose c x) := by
  have hlock := (h.holder c).mp hc
  refine ⟨fun d => ?_, fun d b hd => ?_, fun _ => rfl, ?_⟩
  · simp [State.lose, State.set, h.release hc hx]
  · by_cases hdc : d = c
    · exact absurd (by simpa [State.lose, State.set, hdc] using hd) (hgot b)
    · exact h.shared d b (by simpa [State.lose, State.set, hdc] using hd)
  · have hcount := h.count
    simp [State.lose, State.set, hlock] at hcount ⊢
    omega

theorem step {e : Event α ε} (h : Invariant s) (hs : SingleFlight.step s e = some s') :
    Invariant s' := by
  cases Step.of_step hs with
  | share hc hl ha =>
    exact h.set hc (by simp) fun b hb => by rwa [← Client.got.inj hb]
  | compute hc hl ha => exact h.compute hl ha
  | store hc => exact h.store hc
  | fail hc => exact h.lose hc (by simp) (by simp)
  | pass hc => exact h.set hc (by simp) (by simp)
  | abandon hc => exact h.lose hc (by simp) (by simp)

end Invariant

end SingleFlight
