import Redisson.PatternSubscription
import Redisson.LabelledRuns
import Mathlib.Logic.Function.Basic

/-! Any number of `psubscribe` calls, `remove_listener(Punsubscribe)` calls and cluster
reconnect tasks on one `PublishSubscribeService`. A step is what one of them does between two
points where another may run; a Redis call takes effect at one point between its start and its
end. The subscriber's own connection restores its subscriptions by itself (that is `fred`'s
`manage_subscriptions`), so it counts as connected throughout; the connections to the cluster
nodes lose theirs when they break. -/

namespace Redisson

structure SubscriptionConfig where
  mode : ServerMode
  nodes : List Server

def SubscriptionConfig.carriers (cfg : SubscriptionConfig) (p : ChannelName) :
    List PubSubConnection :=
  if p.perNode cfg.mode then cfg.nodes.map .clusterNode else [.subscriber]

/-- Where a call stands. `checked`, `extended` and `subscribing` belong to `psubscribe`, the
next three to `remove_listener`, which has already emptied the lists of the patterns in `normal`
and `keyspace`, and the two after that to the reconnect task, which has passed the entries
in `seen` of the map it iterates over. -/
inductive SubThread
  | idle
  | checked (p : ChannelName) (ls : List PatternListener) (already : Bool)
  | extended (p : ChannelName) (ls : List PatternListener)
  | subscribing (p : ChannelName) (ls : List PatternListener) (todo : List PubSubConnection)
      (failed : Bool)
  | removing (ids : List ListenerId) (todo normal keyspace : List ChannelName)
  | emptied (ids : List ListenerId) (p : ChannelName) (todo normal keyspace : List ChannelName)
  | unsubscribing (keyspace : List ChannelName) (nodes : List Server)
  | scanning (node : Server) (seen patterns : List ChannelName)
  | resubscribing (node : Server) (patterns : List ChannelName)
  | done

structure WireCall where
  subscribe : Bool
  patterns : List ChannelName
  next : SubThread
  onError : SubThread

namespace SubThread

def call : SubThread → PubSubConnection → Option WireCall
  | subscribing p ls todo failed, c =>
    if c ∈ todo then
      some ⟨true, [p], subscribing p ls (todo.erase c) failed, subscribing p ls (todo.erase c) true⟩
    else none
  | removing ids [] (p :: normal) keyspace, .subscriber =>
    some ⟨false, p :: normal, removing ids [] [] keyspace, done⟩
  | unsubscribing keyspace nodes, .clusterNode n =>
    if n ∈ nodes then
      some ⟨false, keyspace, unsubscribing keyspace (nodes.erase n),
        unsubscribing keyspace (nodes.erase n)⟩
    else none
  | resubscribing n patterns, .clusterNode m =>
    if m = n then some ⟨true, patterns, done, done⟩ else none
  | _, _ => none

theorem call_cases {x : SubThread} {c : PubSubConnection} {w : WireCall}
    (h : x.call c = some w) :
    (∃ p ls todo failed, x = subscribing p ls todo failed ∧ c ∈ todo ∧
      w = ⟨true, [p], subscribing p ls (todo.erase c) failed,
        subscribing p ls (todo.erase c) true⟩) ∨
    (∃ ids normal keyspace, x = removing ids [] normal keyspace ∧ c = .subscriber ∧
      w = ⟨false, normal, removing ids [] [] keyspace, done⟩) ∨
    (∃ keyspace nodes n, x = unsubscribing keyspace nodes ∧ c = .clusterNode n ∧
      w = ⟨false, keyspace, unsubscribing keyspace (nodes.erase n),
        unsubscribing keyspace (nodes.erase n)⟩) ∨
    ∃ n patterns, x = resubscribing n patterns ∧ c = .clusterNode n ∧
      w = ⟨true, patterns, done, done⟩ := by
  unfold call at h
  split at h
  · split at h
    · next hc => cases h; exact .inl ⟨_, _, _, _, rfl, hc, rfl⟩
    · cases h
  · cases h; exact .inr (.inl ⟨_, _, _, rfl, rfl, rfl⟩)
  · split at h
    · cases h; exact .inr (.inr (.inl ⟨_, _, _, rfl, rfl, rfl⟩))
    · cases h
  · split at h
    · next hm => cases h; exact .inr (.inr (.inr ⟨_, _, rfl, congrArg _ hm, rfl⟩))
    · cases h
  · cases h

/-- The listeners that a `psubscribe` has put into the map and will report as registered. -/
def adding : SubThread → ChannelName → List PatternListener
  | extended p ls, q | subscribing p ls _ false, q => if q = p then ls else []
  | _, _ => []

def Emptying : SubThread → ChannelName → Prop
  | emptied _ p _ _ _, q => q = p
  | _, _ => False

/-- The thread has yet to subscribe `q` on `c`, if `q` keeps its entry. -/
def OwesSubscribe (cfg : SubscriptionConfig) : SubThread → PubSubConnection → ChannelName → Prop
  | extended p _, c, q => q = p ∧ c ∈ cfg.carriers p
  | subscribing p _ todo _, c, q => q = p ∧ c ∈ todo
  | scanning n seen patterns, c, q => c = .clusterNode n ∧ (q ∉ seen ∨ q ∈ patterns)
  | resubscribing n patterns, c, q => c = .clusterNode n ∧ q ∈ patterns
  | _, _, _ => False

def OwesUnsubscribe (cfg : SubscriptionConfig) : SubThread → PubSubConnection → ChannelName → Prop
  | removing _ _ normal keyspace, c, q | emptied _ _ _ normal keyspace, c, q =>
    c = .subscriber ∧ q ∈ normal ∨ c ∈ cfg.nodes.map PubSubConnection.clusterNode ∧ q ∈ keyspace
  | unsubscribing keyspace nodes, c, q =>
    c ∈ nodes.map PubSubConnection.clusterNode ∧ q ∈ keyspace
  | _, _, _ => False

theorem call_adding {x : SubThread} {c : PubSubConnection} {w : WireCall}
    (h : x.call c = some w) (q : ChannelName) :
    w.next.adding q ⊆ x.adding q ∧ w.onError.adding q ⊆ x.adding q := by
  rcases call_cases h with ⟨p, ls, todo, failed, rfl, -, rfl⟩ | ⟨ids, normal, keyspace, rfl, -, rfl⟩ |
    ⟨keyspace, nodes, n, rfl, -, rfl⟩ | ⟨n, patterns, rfl, -, rfl⟩
  · cases failed <;> simp [adding]
  all_goals simp [adding]

theorem call_not_emptying {x : SubThread} {c : PubSubConnection} {w : WireCall}
    (h : x.call c = some w) (q : ChannelName) : ¬ x.Emptying q := by
  rcases call_cases h with ⟨p, ls, todo, failed, rfl, -, -⟩ | ⟨ids, normal, keyspace, rfl, -, -⟩ |
    ⟨keyspace, nodes, n, rfl, -, -⟩ | ⟨n, patterns, rfl, -, -⟩ <;> exact id

theorem OwesSubscribe.next {cfg : SubscriptionConfig} {x : SubThread} {c c' : PubSubConnection}
    {w : WireCall} {q : ChannelName} (h : x.call c = some w) (ho : x.OwesSubscribe cfg c' q) :
    w.next.OwesSubscribe cfg c' q ∨ w.subscribe = true ∧ c' = c ∧ q ∈ w.patterns := by
  rcases call_cases h with ⟨p, ls, todo, failed, rfl, -, rfl⟩ | ⟨ids, normal, keyspace, rfl, -, rfl⟩ |
    ⟨keyspace, nodes, n, rfl, -, rfl⟩ | ⟨n, patterns, rfl, rfl, rfl⟩
  · obtain ⟨rfl, hc'⟩ := ho
    by_cases hcc : c' = c
    · exact .inr ⟨rfl, hcc, by simp⟩
    · exact .inl ⟨rfl, (List.mem_erase_of_ne hcc).mpr hc'⟩
  · exact ho.elim
  · exact ho.elim
  · exact .inr ⟨rfl, ho.1, ho.2⟩

theorem OwesUnsubscribe.next {cfg : SubscriptionConfig} {x : SubThread} {c c' : PubSubConnection}
    {w : WireCall} {q : ChannelName} (h : x.call c = some w) (ho : x.OwesUnsubscribe cfg c' q) :
    w.next.OwesUnsubscribe cfg c' q ∨ w.subscribe = false ∧ c' = c ∧ q ∈ w.patterns := by
  rcases call_cases h with ⟨p, ls, todo, failed, rfl, -, rfl⟩ | ⟨ids, normal, keyspace, rfl, rfl, rfl⟩ |
    ⟨keyspace, nodes, n, rfl, rfl, rfl⟩ | ⟨n, patterns, rfl, -, rfl⟩
  · exact ho.elim
  · rcases ho with ⟨hc', hq⟩ | hk
    · exact .inr ⟨rfl, hc', hq⟩
    · exact .inl (.inr hk)
  · obtain ⟨hc', hq⟩ := ho
    obtain ⟨m, hm, rfl⟩ := List.mem_map.mp hc'
    by_cases hmn : m = n
    · exact .inr ⟨rfl, congrArg _ hmn, hq⟩
    · exact .inl ⟨List.mem_map_of_mem ((List.mem_erase_of_ne hmn).mpr hm), hq⟩
  · exact ho.elim

def Resting : SubThread → Prop
  | idle | done => True
  | _ => False

end SubThread

/-- The service and what Redis has subscribed. `owed` holds the listeners whose `psubscribe`
returned `Ok` and that no `remove_listener` begun since has named, `failed` says whether
some call has failed. -/
structure SubscriptionState where
  maps : ListenerMaps
  subscribed : PubSubConnection → ChannelName → Bool
  connected : PubSubConnection → Bool
  threads : Nat → SubThread
  owed : ChannelName → List PatternListener
  failed : Bool

namespace SubscriptionState

def new : SubscriptionState :=
  ⟨.empty, fun _ _ => false, fun _ => true, fun _ => .idle, fun _ => [], false⟩

def entry (s : SubscriptionState) (p : ChannelName) : Option (List PatternListener) :=
  s.maps.lookup p.patternMap p

def listeners (s : SubscriptionState) (p : ChannelName) : List PatternListener :=
  (s.entry p).getD []

def setThread (s : SubscriptionState) (t : Nat) (x : SubThread) : SubscriptionState :=
  { s with threads := Function.update s.threads t x }

def perform (s : SubscriptionState) (c : PubSubConnection) (call : WireCall) :
    PubSubConnection → ChannelName → Bool := fun c' q =>
  if c' = c ∧ q ∈ call.patterns then call.subscribe else s.subscribed c' q

end SubscriptionState

/-- `check` to `send` belong to `psubscribe`, `beginRemove` to `fetchEntries` to
`remove_listener`, `scan` and `endScan` to a reconnect task. `deliver` and `fail` end a Redis
call of any of them; one that fails may have been performed. -/
inductive SubEvent
  | check (t : Nat) (p : ChannelName) (ls : List PatternListener)
  | extend (t : Nat)
  | send (t : Nat)
  | entrySetFailed (t : Nat)
  | deliver (t : Nat) (c : PubSubConnection)
  | fail (t : Nat) (c : PubSubConnection) (performed : Bool)
  | finish (t : Nat)
  | beginRemove (t : Nat) (names : List ChannelName) (ids : List ListenerId)
  | retain (t : Nat)
  | erase (t : Nat)
  | fetchEntries (t : Nat)
  | disconnect (node : Server)
  | reconnect (t : Nat) (node : Server)
  | scan (t : Nat) (p : ChannelName)
  | endScan (t : Nat)

def subStep (cfg : SubscriptionConfig) (s : SubscriptionState) :
    SubEvent → Option SubscriptionState
  | .check t p ls =>
    match s.threads t with
    | .idle => some (s.setThread t (.checked p ls (s.entry p).isSome))
    | _ => none
  | .extend t =>
    match s.threads t with
    | .checked p ls already =>
      some ({ s with maps := s.maps.extend p.patternMap p ls }.setThread t
        (if already then .subscribing p ls [] false else .extended p ls))
    | _ => none
  | .send t =>
    match s.threads t with
    | .extended p ls => some (s.setThread t (.subscribing p ls (cfg.carriers p) false))
    | _ => none
  | .entrySetFailed t =>
    match s.threads t with
    | .extended p _ =>
      if p.perNode cfg.mode then some { s.setThread t .done with failed := true } else none
    | .removing _ [] [] (_ :: _) => some { s.setThread t .done with failed := true }
    | _ => none
  | .deliver t c =>
    match (s.threads t).call c with
    | some call =>
      if s.connected c then
        some { s.setThread t call.next with subscribed := s.perform c call }
      else none
    | none => none
  | .fail t c performed =>
    match (s.threads t).call c with
    | some call =>
      some { s.setThread t call.onError with
        subscribed := if performed then s.perform c call else s.subscribed
        failed := true }
    | none => none
  | .finish t =>
    match s.threads t with
    | .subscribing p ls [] false =>
      some { s.setThread t .done with owed := Function.update s.owed p (s.owed p ++ ls) }
    | .subscribing p _ [] true =>
      some { s.setThread t .done with maps := s.maps.clear p.patternMap p, failed := true }
    | .unsubscribing _ [] => some (s.setThread t .done)
    | _ => none
  | .beginRemove t names ids =>
    match s.threads t with
    | .idle =>
      some { s.setThread t (.removing ids names [] []) with
        owed := fun p => retained ids (s.owed p) }
    | _ => none
  | .retain t =>
    match s.threads t with
    | .removing ids (p :: todo) normal keyspace =>
      match s.entry p with
      | none => some (s.setThread t (.removing ids todo normal keyspace))
      | some ls =>
        some ({ s with maps := s.maps.retain p.patternMap p ids }.setThread t
          (if (retained ids ls).isEmpty then .emptied ids p todo normal keyspace
            else .removing ids todo normal keyspace))
    | _ => none
  | .erase t =>
    match s.threads t with
    | .emptied ids p todo normal keyspace =>
      some ({ s with maps := s.maps.remove p.patternMap p }.setThread t
        (if p.perNode cfg.mode then .removing ids todo normal (keyspace ++ [p])
          else .removing ids todo (normal ++ [p]) keyspace))
    | _ => none
  | .fetchEntries t =>
    match s.threads t with
    | .removing _ [] [] keyspace =>
      some (s.setThread t (if keyspace.isEmpty then .done else .unsubscribing keyspace cfg.nodes))
    | _ => none
  | .disconnect n =>
    if cfg.mode = .cluster then
      some { s with
        connected := Function.update s.connected (.clusterNode n) false
        subscribed := fun c q => c ≠ .clusterNode n && s.subscribed c q }
    else none
  | .reconnect t n =>
    match s.threads t with
    | .idle =>
      if cfg.mode = .cluster ∧ s.connected (.clusterNode n) = false then
        some { s.setThread t (.scanning n [] []) with
          connected := Function.update s.connected (.clusterNode n) true }
      else none
    | _ => none
  | .scan t p =>
    match s.threads t with
    | .scanning n seen patterns =>
      if p ∈ seen then none
      else some (s.setThread t (.scanning n (p :: seen)
        (if (s.maps.lookup .keyspacePatternListeners p).isSome then patterns ++ [p]
          else patterns)))
    | _ => none
  | .endScan t =>
    match s.threads t with
    | .scanning n seen patterns =>
      if s.maps.keyspacePatternListeners.keys ⊆ seen then
        some (s.setThread t (if patterns.isEmpty then .done else .resubscribing n patterns))
      else none
    | _ => none

inductive SubStep (cfg : SubscriptionConfig) (s : SubscriptionState) :
    SubEvent → SubscriptionState → Prop
  | check {t : Nat} {p : ChannelName} {ls : List PatternListener} (ht : s.threads t = .idle) :
      SubStep cfg s (.check t p ls) (s.setThread t (.checked p ls (s.entry p).isSome))
  | extend {t : Nat} {p : ChannelName} {ls : List PatternListener} {already : Bool}
      (ht : s.threads t = .checked p ls already) : SubStep cfg s (.extend t)
      ({ s with maps := s.maps.extend p.patternMap p ls }.setThread t
        (if already then .subscribing p ls [] false else .extended p ls))
  | send {t : Nat} {p : ChannelName} {ls : List PatternListener}
      (ht : s.threads t = .extended p ls) : SubStep cfg s (.send t)
      (s.setThread t (.subscribing p ls (cfg.carriers p) false))
  | subscribeWithoutEntries {t : Nat} {p : ChannelName} {ls : List PatternListener}
      (ht : s.threads t = .extended p ls) (hp : p.perNode cfg.mode = true) :
      SubStep cfg s (.entrySetFailed t) { s.setThread t .done with failed := true }
  | removeWithoutEntries {t : Nat} {ids : List ListenerId} {p : ChannelName}
      {keyspace : List ChannelName} (ht : s.threads t = .removing ids [] [] (p :: keyspace)) :
      SubStep cfg s (.entrySetFailed t) { s.setThread t .done with failed := true }
  | deliver {t : Nat} {c : PubSubConnection} {call : WireCall}
      (ht : (s.threads t).call c = some call) (hc : s.connected c = true) :
      SubStep cfg s (.deliver t c)
        { s.setThread t call.next with subscribed := s.perform c call }
  | fail {t : Nat} {c : PubSubConnection} {performed : Bool} {call : WireCall}
      (ht : (s.threads t).call c = some call) : SubStep cfg s (.fail t c performed)
      { s.setThread t call.onError with
        subscribed := if performed then s.perform c call else s.subscribed
        failed := true }
  | finish {t : Nat} {p : ChannelName} {ls : List PatternListener}
      (ht : s.threads t = .subscribing p ls [] false) : SubStep cfg s (.finish t)
      { s.setThread t .done with owed := Function.update s.owed p (s.owed p ++ ls) }
  | finishFailed {t : Nat} {p : ChannelName} {ls : List PatternListener}
      (ht : s.threads t = .subscribing p ls [] true) : SubStep cfg s (.finish t)
      { s.setThread t .done with maps := s.maps.clear p.patternMap p, failed := true }
  | finishRemove {t : Nat} {keyspace : List ChannelName}
      (ht : s.threads t = .unsubscribing keyspace []) :
      SubStep cfg s (.finish t) (s.setThread t .done)
  | beginRemove {t : Nat} {names : List ChannelName} {ids : List ListenerId}
      (ht : s.threads t = .idle) : SubStep cfg s (.beginRemove t names ids)
      { s.setThread t (.removing ids names [] []) with
        owed := fun p => retained ids (s.owed p) }
  | retainAbsent {t : Nat} {ids : List ListenerId} {p : ChannelName}
      {todo normal keyspace : List ChannelName}
      (ht : s.threads t = .removing ids (p :: todo) normal keyspace) (he : s.entry p = none) :
      SubStep cfg s (.retain t) (s.setThread t (.removing ids todo normal keyspace))
  | retain {t : Nat} {ids : List ListenerId} {p : ChannelName}
      {todo normal keyspace : List ChannelName} {ls : List PatternListener}
      (ht : s.threads t = .removing ids (p :: todo) normal keyspace) (he : s.entry p = some ls) :
      SubStep cfg s (.retain t)
        ({ s with maps := s.maps.retain p.patternMap p ids }.setThread t
          (if (retained ids ls).isEmpty then .emptied ids p todo normal keyspace
            else .removing ids todo normal keyspace))
  | erase {t : Nat} {ids : List ListenerId} {p : ChannelName}
      {todo normal keyspace : List ChannelName}
      (ht : s.threads t = .emptied ids p todo normal keyspace) : SubStep cfg s (.erase t)
      ({ s with maps := s.maps.remove p.patternMap p }.setThread t
        (if p.perNode cfg.mode then .removing ids todo normal (keyspace ++ [p])
          else .removing ids todo (normal ++ [p]) keyspace))
  | fetchEntries {t : Nat} {ids : List ListenerId} {keyspace : List ChannelName}
      (ht : s.threads t = .removing ids [] [] keyspace) : SubStep cfg s (.fetchEntries t)
      (s.setThread t (if keyspace.isEmpty then .done else .unsubscribing keyspace cfg.nodes))
  | disconnect {n : Server} (hm : cfg.mode = .cluster) : SubStep cfg s (.disconnect n)
      { s with
        connected := Function.update s.connected (.clusterNode n) false
        subscribed := fun c q => c ≠ .clusterNode n && s.subscribed c q }
  | reconnect {t : Nat} {n : Server} (ht : s.threads t = .idle) (hm : cfg.mode = .cluster)
      (hc : s.connected (.clusterNode n) = false) : SubStep cfg s (.reconnect t n)
      { s.setThread t (.scanning n [] []) with
        connected := Function.update s.connected (.clusterNode n) true }
  | scan {t : Nat} {p : ChannelName} {n : Server} {seen patterns : List ChannelName}
      (ht : s.threads t = .scanning n seen patterns) (hp : p ∉ seen) : SubStep cfg s (.scan t p)
      (s.setThread t (.scanning n (p :: seen)
        (if (s.maps.lookup .keyspacePatternListeners p).isSome then patterns ++ [p]
          else patterns)))
  | endScan {t : Nat} {n : Server} {seen patterns : List ChannelName}
      (ht : s.threads t = .scanning n seen patterns)
      (hk : s.maps.keyspacePatternListeners.keys ⊆ seen) : SubStep cfg s (.endScan t)
      (s.setThread t (if patterns.isEmpty then .done else .resubscribing n patterns))

theorem SubStep.of_step {cfg : SubscriptionConfig} {s s' : SubscriptionState} {e : SubEvent}
    (h : subStep cfg s e = some s') : SubStep cfg s e s' := by
  cases e with
  | check t p ls =>
    simp only [subStep] at h
    split at h
    · next ht => cases h; exact .check ht
    · cases h
  | extend t =>
    simp only [subStep] at h
    split at h
    · next ht => cases h; exact .extend ht
    · cases h
  | send t =>
    simp only [subStep] at h
    split at h
    · next ht => cases h; exact .send ht
    · cases h
  | entrySetFailed t =>
    simp only [subStep] at h
    split at h
    · next ht =>
      split at h
      · next hp => cases h; exact .subscribeWithoutEntries ht hp
      · cases h
    · next ht => cases h; exact .removeWithoutEntries ht
    · cases h
  | deliver t c =>
    simp only [subStep] at h
    split at h
    · next ht =>
      split at h
      · next hc => cases h; exact .deliver ht hc
      · cases h
    · cases h
  | fail t c performed =>
    simp only [subStep] at h
    split at h
    · next ht => cases h; exact .fail ht
    · cases h
  | finish t =>
    simp only [subStep] at h
    split at h
    · next ht => cases h; exact .finish ht
    · next ht => cases h; exact .finishFailed ht
    · next ht => cases h; exact .finishRemove ht
    · cases h
  | beginRemove t names ids =>
    simp only [subStep] at h
    split at h
    · next ht => cases h; exact .beginRemove ht
    · cases h
  | retain t =>
    simp only [subStep] at h
    split at h
    · next ht =>
      split at h
      · next he => cases h; exact .retainAbsent ht he
      · next he => cases h; exact .retain ht he
    · cases h
  | erase t =>
    simp only [subStep] at h
    split at h
    · next ht => cases h; exact .erase ht
    · cases h
  | fetchEntries t =>
    simp only [subStep] at h
    split at h
    · next ht => cases h; exact .fetchEntries ht
    · cases h
  | disconnect n =>
    simp only [subStep] at h
    split at h
    · next hm => cases h; exact .disconnect hm
    · cases h
  | reconnect t n =>
    simp only [subStep] at h
    split at h
    · next ht =>
      split at h
      · next hh => cases h; exact .reconnect ht hh.1 hh.2
      · cases h
    · cases h
  | scan t p =>
    simp only [subStep] at h
    split at h
    · next ht =>
      split at h
      · cases h
      · next hp => cases h; exact .scan ht hp
    · cases h
  | endScan t =>
    simp only [subStep] at h
    split at h
    · next ht =>
      split at h
      · next hk => cases h; exact .endScan ht hk
      · cases h
    · cases h

theorem SubStep.to_step {cfg : SubscriptionConfig} {s s' : SubscriptionState} {e : SubEvent}
    (h : SubStep cfg s e s') : subStep cfg s e = some s' := by
  cases h with
  | check ht | extend ht | send ht | removeWithoutEntries ht | fail ht | finish ht
  | finishFailed ht | finishRemove ht | beginRemove ht | erase ht | fetchEntries ht =>
    simp only [subStep, ht]
  | subscribeWithoutEntries ht hp => simp only [subStep, ht, hp, if_true]
  | deliver ht hc => simp only [subStep, ht, hc, if_true]
  | retainAbsent ht he | retain ht he => simp only [subStep, ht, he]
  | disconnect hm => simp only [subStep, hm, if_true]
  | reconnect ht hm hc => simp only [subStep, ht, hm, hc, and_self, if_true]
  | scan ht hp => simp only [subStep, ht, hp, if_false]
  | endScan ht hk => simp only [subStep, ht, hk, if_true]

end Redisson
