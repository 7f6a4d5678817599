import Redisson.PubSubDelivery
import Redisson.BroadcastLoops

/-! The two loops that hand messages to the listeners, as tasks that run while calls come and go.
A lag is logged and skipped, and only the end of the channel ends them. -/

namespace Redisson

open LabelledRuns BroadcastLoops SubscriptionState

/-- What `message_rx` carries. The service's one kind of listener leaves `on_message` empty. -/
inductive SubscriberMessage
  | pmessage (channel : String) (value : Value)
  | message (channel : String) (value : Value)
  | smessage (channel : String) (value : Value)

def SubscriberMessage.event : SubscriberMessage → Option PubSubEvent
  | pmessage channel value => some (.pmessage channel value)
  | message .. | smessage .. => none

/-- What `keyspace_event_rx` carries. -/
structure KeyspaceEvent where
  db : UInt8
  operation : String
  key : Bytes

def KeyspaceEvent.event (e : KeyspaceEvent) : Option PubSubEvent :=
  some (.keyspaceEvent e.db e.operation e.key)

variable {α : Type*}

def dispatchLoop (cfg : SubscriptionConfig) (event : α → Option PubSubEvent) (capacity : Nat) :
    Loop SubscriptionState SubEvent α (List ListenerCall) where
  capacity := capacity
  stopsOnLag := false
  step := subStep cfg
  send w _ _ := some w
  body w _ a := (w, (event a).elim [] w.maps.dispatch)

def messageLoop (cfg : SubscriptionConfig) (capacity : Nat) :
    Loop SubscriptionState SubEvent SubscriberMessage (List ListenerCall) :=
  dispatchLoop cfg SubscriberMessage.event capacity

def keyspaceLoop (cfg : SubscriptionConfig) (capacity : Nat) :
    Loop SubscriptionState SubEvent KeyspaceEvent (List ListenerCall) :=
  dispatchLoop cfg KeyspaceEvent.event capacity

abbrev DispatchState (α : Type*) := BroadcastLoops.State SubscriptionState α (List ListenerCall)

namespace DispatchState

variable {cfg : SubscriptionConfig} {event : α → Option PubSubEvent} {capacity : Nat}

theorem called_of_listeners {w : SubscriptionState} {e : PubSubEvent} {p : ChannelName}
    {l : PatternListener} (hl : l ∈ w.listeners p) (hmap : e.map = p.patternMap)
    (hname : l.name = p.str) (hsel : e.selects p = true) :
    ⟨l, p, (e.presented p).1, (e.presented p).2⟩ ∈ w.maps.dispatch e := by
  obtain ⟨ls, hls, hmem⟩ := mem_listeners_iff.mp hl
  exact mem_dispatch (hmap ▸ hls) hmem hname hsel

/-- A listener that stays registered from the moment a message is received is called for it, in
one turn of the loop; or the message is still to come, or was overwritten because more than the
capacity came after it before the loop did. Whatever the loop handles it handles once and in
order. -/
theorem called_or_overwritten {es₀ es : List (Event SubEvent α)} {s₀ s₁ s : DispatchState α}
    {first : Nat} {a : α} {e : PubSubEvent} {p : ChannelName} {l : PatternListener}
    (hreach : run (step (dispatchLoop cfg event capacity)) (State.new SubscriptionState.new) es₀ =
      some s₀)
    (hlisten : s₀.phase = .listening first)
    (hsend : step (dispatchLoop cfg event capacity) s₀ (.send a) = some s₁)
    (he : event a = some e) (hmap : e.map = p.patternMap) (hsel : e.selects p = true)
    (hname : l.name = p.str)
    (hrun : GuardedRun (step (dispatchLoop cfg event capacity))
      (fun m _ => l ∈ m.world.listeners p) s₁ es s) :
    s.log.Pairwise (fun x y => x.1 < y.1) ∧
      ((∃ calls, (s₀.sent.length, .handled calls) ∈ s.log ∧
          ⟨l, p, (e.presented p).1, (e.presented p).2⟩ ∈ calls) ∨
        (s₀.sent.length, .missed) ∈ s.log ∧ s₀.sent.length + capacity < s.sent.length ∨
        ∃ n, s.phase = .listening n ∧ n ≤ s₀.sent.length) := by
  have hbegun : s₀.phase ≠ .spawned := fun h => nomatch hlisten.symm.trans h
  obtain ⟨start, haccounted⟩ := exists_accounted rfl hreach hbegun
  have hbound : start + s₀.log.length ≤ s₀.sent.length := by
    rw [← haccounted.next first hlisten]
    exact ((numbered_of_run hreach).next first hlisten).1
  obtain ⟨hworld, hsent, hlog⟩ : s₁.world = s₀.world ∧ s₁.sent = s₀.sent ++ [a] ∧
      s₁.log = s₀.log := by
    cases Step.of_step hsend with
    | send hopen hw =>
      cases hw
      exact ⟨rfl, rfl, rfl⟩
  have haccounted₁ := State.accounted_step rfl haccounted (Step.of_step hsend)
  have hat : s₁.sent[s₀.sent.length]? = some a := by simp [hsent]
  have hposition : start + s₁.log.length ≤ s₀.sent.length := hlog ▸ hbound
  refine ⟨(accounted_of_run rfl haccounted₁ hrun.run_eq).ordered, ?_⟩
  rcases outcome_of_run (P := fun w => l ∈ w.listeners p) rfl haccounted₁ hat hposition hrun with
    ⟨w, hw, hhandled⟩ | hmissed | hwaiting
  · refine .inl ⟨_, hhandled, ?_⟩
    have hbody :
        ((dispatchLoop cfg event capacity).body w s₀.sent.length a).2 = w.maps.dispatch e := by
      simp [dispatchLoop, he]
    rw [hbody]
    exact called_of_listeners hw hmap hname hsel
  · exact .inr (.inl hmissed)
  · exact .inr (.inr hwaiting)

def newsArtReceived : SubscriberMessage := .pmessage "news.art" (.string "x")

theorem called_or_overwritten_newsArt : ∃ s : DispatchState SubscriberMessage,
    run (step (messageLoop standalone 1)) (State.new SubscriptionState.new)
      (subscribeFirst.map .other ++ [.start, .send newsArtReceived, .poll]) = some s ∧
    ∃ calls, (0, .handled calls) ∈ s.log ∧
      ⟨firstListener, newsPattern, "news.art", .string "x"⟩ ∈ calls := by
  have hsel : (PubSubEvent.pmessage "news.art" (.string "x")).selects newsPattern = true := by
    decide +kernel
  have h := @called_or_overwritten SubscriberMessage standalone SubscriberMessage.event 1
    (subscribeFirst.map .other ++ [.start]) [.poll] _ _ _ 0 newsArtReceived _ newsPattern
    firstListener rfl rfl rfl rfl (by decide +kernel) hsel rfl
    ⟨List.mem_singleton_self _, _, rfl, rfl⟩
  refine ⟨_, rfl, ?_⟩
  rcases h.2 with hcalled | ⟨hmissed, -⟩ | ⟨n, hn, hle⟩
  · exact hcalled
  · cases List.mem_singleton.mp hmissed
  · cases hn
    cases hle

end DispatchState

end Redisson
