import Redisson.FredTypes
import Redisson.LabelledRuns

/-! One `CommandBatchService` under any number of concurrent calls of `async0`,
`execute_async` and `discard_async`. A step is what a call does between two points where
another task may run. -/

namespace Redisson

inductive QueueKind
  | inMemory
  | redisBased
  deriving DecidableEq, Repr

/-- A queued command with its sender, named by the `async0` call that made it. -/
structure Pending where
  caller : Nat
  index : Nat
  deriving DecidableEq, Repr

/-- An `async0` call: it takes its index, waits for the lock of the queue, in the
Redis-based variant sends while it holds the lock, and awaits its reply. -/
inductive Caller
  | idle
  | indexed (index : Nat)
  | sending (index : Nat)
  | waiting (index : Nat)
  | resolved (r : Reply)

inductive TerminalOp
  | execute
  | discard
  deriving DecidableEq, Repr

/-- An `execute_async` or `discard_async` call. `running` and `returned` hold the senders
that are still open in the tasks it has spawned; those outlive an error until their abort. -/
inductive Terminal
  | idle
  | refused
  | won (op : TerminalOp)
  | running (senders : List Pending)
  | returned (senders : List Pending)

namespace Terminal

def senders : Terminal → List Pending
  | running l | returned l => l
  | _ => []

def dropSender (c : Nat) : Terminal → Terminal
  | running l => running (l.filter (·.caller ≠ c))
  | returned l => returned (l.filter (·.caller ≠ c))
  | t => t

def Winner : Terminal → Prop
  | idle | refused => False
  | won _ | running _ | returned _ => True

def Closed : Terminal → Prop
  | running _ | returned _ => True
  | _ => False

def Returned : Terminal → Prop
  | returned _ => True
  | _ => False

end Terminal

structure BatchState where
  executed : Bool
  nextIndex : Nat
  lock : Option Nat
  queue : List Pending
  callers : Nat → Caller
  terminals : Nat → Terminal

namespace BatchState

def new : BatchState := ⟨false, 0, none, [], fun _ => .idle, fun _ => .idle⟩

def setCaller (s : BatchState) (c : Nat) (x : Caller) : BatchState :=
  { s with callers := Function.update s.callers c x }

def setTerminal (s : BatchState) (t : Nat) (x : Terminal) : BatchState :=
  { s with terminals := Function.update s.terminals t x }

def enqueue (s : BatchState) (c i : Nat) : BatchState :=
  { s.setCaller c (.waiting i) with queue := s.queue ++ [⟨c, i⟩] }

def discarded : Error := ⟨"batch discarded"⟩

def discardAll (s : BatchState) : BatchState :=
  { s with
    queue := []
    callers := fun c =>
      if c ∈ s.queue.map Pending.caller then .resolved (.error discarded) else s.callers c }

end BatchState

/-- `fetchIndex` to `enqueue` belong to `async0` calls: `push` is the in-memory case, the
next three the Redis-based one, where `refuse` covers WAIT and every failed send. The rest
belongs to terminal calls: `settle` answers or drops one open sender, `timeOut` strikes
while `execute_redis_based_queue` waits for the lock. -/
inductive BatchEvent
  | fetchIndex (c : Nat)
  | push (c : Nat)
  | lockQueue (c : Nat)
  | refuse (c : Nat) (e : Error)
  | enqueue (c : Nat)
  | compareExchange (t : Nat) (op : TerminalOp)
  | drain (t : Nat)
  | timeOut (t : Nat)
  | settle (t c : Nat) (r : Reply)
  | finish (t : Nat) (failed : Bool)

def batchStep (kind : QueueKind) (s : BatchState) : BatchEvent → Option BatchState
  | .fetchIndex c =>
    match s.callers c with
    | .idle => some ({ s.setCaller c (.indexed s.nextIndex) with nextIndex := s.nextIndex + 1 })
    | _ => none
  | .push c =>
    match kind, s.callers c, s.lock with
    | .inMemory, .indexed i, none =>
      some (s.enqueue c i)
    | _, _, _ => none
  | .lockQueue c =>
    match kind, s.callers c, s.lock with
    | .redisBased, .indexed i, none => some ({ s.setCaller c (.sending i) with lock := some c })
    | _, _, _ => none
  | .refuse c e =>
    match s.callers c with
    | .sending _ => some ({ s.setCaller c (.resolved (.error e)) with lock := none })
    | _ => none
  | .enqueue c =>
    match s.callers c with
    | .sending i =>
      some ({ s.enqueue c i with lock := none })
    | _ => none
  | .compareExchange t op =>
    match s.terminals t with
    | .idle =>
      if s.executed then some (s.setTerminal t .refused)
      else some ({ s.setTerminal t (.won op) with executed := true })
    | _ => none
  | .drain t =>
    match s.terminals t, s.lock with
    | .won .discard, none => some (s.discardAll.setTerminal t (.returned []))
    | .won .execute, none =>
      if s.queue.isEmpty then some (s.setTerminal t (.returned []))
      else some ({ s.setTerminal t (.running s.queue) with queue := [] })
    | _, _ => none
  | .timeOut t =>
    match kind, s.terminals t with
    | .redisBased, .won .execute => some (s.setTerminal t (.returned []))
    | _, _ => none
  | .settle t c r =>
    if c ∈ (s.terminals t).senders.map Pending.caller then
      some ((s.setTerminal t ((s.terminals t).dropSender c)).setCaller c (.resolved r))
    else none
  | .finish t failed =>
    match s.terminals t with
    | .running l =>
      if l.isEmpty ∨ (failed ∧ kind = .inMemory) then some (s.setTerminal t (.returned l)) else none
    | _ => none

/-- What each step asks of the state before it, and the state it leads to. -/
inductive BatchStep (kind : QueueKind) (s : BatchState) : BatchEvent → BatchState → Prop
  | fetchIndex {c : Nat} (hc : s.callers c = .idle) : BatchStep kind s (.fetchIndex c)
      ({ s.setCaller c (.indexed s.nextIndex) with nextIndex := s.nextIndex + 1 })
  | push {c i : Nat} (hk : kind = .inMemory) (hc : s.callers c = .indexed i) (hl : s.lock = none) :
      BatchStep kind s (.push c)
        (s.enqueue c i)
  | lockQueue {c i : Nat} (hk : kind = .redisBased) (hc : s.callers c = .indexed i)
      (hl : s.lock = none) :
      BatchStep kind s (.lockQueue c) ({ s.setCaller c (.sending i) with lock := some c })
  | refuse {c i : Nat} {e : Error} (hc : s.callers c = .sending i) : BatchStep kind s (.refuse c e)
      ({ s.setCaller c (.resolved (.error e)) with lock := none })
  | enqueue {c i : Nat} (hc : s.callers c = .sending i) : BatchStep kind s (.enqueue c)
      ({ s.enqueue c i with lock := none })
  | lose {t : Nat} {op : TerminalOp} (ht : s.terminals t = .idle) (he : s.executed = true) :
      BatchStep kind s (.compareExchange t op) (s.setTerminal t .refused)
  | win {t : Nat} {op : TerminalOp} (ht : s.terminals t = .idle) (he : s.executed = false) :
      BatchStep kind s (.compareExchange t op)
        ({ s.setTerminal t (.won op) with executed := true })
  | discard {t : Nat} (ht : s.terminals t = .won .discard) (hl : s.lock = none) :
      BatchStep kind s (.drain t) (s.discardAll.setTerminal t (.returned []))
  | drainEmpty {t : Nat} (ht : s.terminals t = .won .execute) (hl : s.lock = none)
      (hq : s.queue = []) : BatchStep kind s (.drain t) (s.setTerminal t (.returned []))
  | drain {t : Nat} (ht : s.terminals t = .won .execute) (hl : s.lock = none)
      (hq : s.queue ≠ []) :
      BatchStep kind s (.drain t) ({ s.setTerminal t (.running s.queue) with queue := [] })
  | timeOut {t : Nat} (hk : kind = .redisBased) (ht : s.terminals t = .won .execute) :
      BatchStep kind s (.timeOut t) (s.setTerminal t (.returned []))
  | settle {t c : Nat} {r : Reply} (hc : c ∈ (s.terminals t).senders.map Pending.caller) :
      BatchStep kind s (.settle t c r)
        ((s.setTerminal t ((s.terminals t).dropSender c)).setCaller c (.resolved r))
  | finish {t : Nat} {failed : Bool} {l : List Pending} (ht : s.terminals t = .running l)
      (hl : l = [] ∨ failed = true ∧ kind = .inMemory) :
      BatchStep kind s (.finish t failed) (s.setTerminal t (.returned l))

theorem BatchStep.of_step {kind : QueueKind} {s s' : BatchState} {e : BatchEvent}
    (h : batchStep kind s e = some s') : BatchStep kind s e s' := by
  cases e with
  | fetchIndex c =>
    simp only [batchStep] at h
    split at h
    · next hc => cases h; exact .fetchIndex hc
    · cases h
  | push c =>
    simp only [batchStep] at h
    split at h
    · next hc hl => cases h; exact .push rfl hc hl
    · cases h
  | lockQueue c =>
    simp only [batchStep] at h
    split at h
    · next hc hl => cases h; exact .lockQueue rfl hc hl
    · cases h
  | refuse c e =>
    simp only [batchStep] at h
    split at h
    · next hc => cases h; exact .refuse hc
    · cases h
  | enqueue c =>
    simp only [batchStep] at h
    split at h
    · next hc => cases h; exact .enqueue hc
    · cases h
  | compareExchange t op =>
    simp only [batchStep] at h
    split at h
    · next ht =>
      by_cases he : s.executed = true
      · rw [if_pos he] at h
        cases h
        exact .lose ht he
      · rw [if_neg he] at h
        cases h
        exact .win ht (by simpa using he)
    · cases h
  | drain t =>
    simp only [batchStep] at h
    split at h
    · next ht hl => cases h; exact .discard ht hl
    · next ht hl =>
      by_cases hq : s.queue = []
      · rw [if_pos (by simp [hq])] at h
        cases h
        exact .drainEmpty ht hl hq
      · rw [if_neg (by simpa using hq)] at h
        cases h
        exact .drain ht hl hq
    · cases h
  | timeOut t =>
    simp only [batchStep] at h
    split at h
    · next ht => cases h; exact .timeOut rfl ht
    · cases h
  | settle t c r =>
    simp only [batchStep] at h
    split at h
    · next hc => cases h; exact .settle hc
    · cases h
  | finish t failed =>
    simp only [batchStep] at h
    split at h
    · next l ht =>
      split at h
      · next hl => cases h; exact .finish ht (by simpa using hl)
      · cases h
    · cases h

theorem BatchStep.resolved {kind : QueueKind} {b b' : BatchState} {c : Nat} {r : Reply} {e : BatchEvent}
    (h : BatchStep kind b e b') (hr : b.callers c = .resolved r) : ∃ r', b'.callers c = .resolved r' := by
  have key : ∀ (c' : Nat) (x : Caller), (c = c' → ∃ r', x = .resolved r') →
      b'.callers = Function.update b.callers c' x → ∃ r', b'.callers c = .resolved r' := by
    intro c' x hx hcall
    by_cases heq : c = c'
    · obtain ⟨r', hr'⟩ := hx heq
      exact ⟨r', by rw [hcall, heq, Function.update_self, hr']⟩
    · exact ⟨r, by rw [hcall, Function.update_of_ne heq, hr]⟩
  cases h with
  | fetchIndex hc => exact key _ _ (fun heq => by simp [← heq, hr] at hc) rfl
  | push hk hc hl => exact key _ _ (fun heq => by simp [← heq, hr] at hc) rfl
  | lockQueue hk hc hl => exact key _ _ (fun heq => by simp [← heq, hr] at hc) rfl
  | refuse hc => exact key _ _ (fun heq => by simp [← heq, hr] at hc) rfl
  | enqueue hc => exact key _ _ (fun heq => by simp [← heq, hr] at hc) rfl
  | settle hc => exact key _ _ (fun _ => ⟨_, rfl⟩) rfl
  | discard ht hl =>
    by_cases hm : c ∈ b.queue.map Pending.caller
    · exact ⟨_, if_pos hm⟩
    · exact ⟨r, (if_neg hm).trans hr⟩
  | lose | win | drainEmpty | drain | timeOut | finish => exact ⟨r, hr⟩

end Redisson
