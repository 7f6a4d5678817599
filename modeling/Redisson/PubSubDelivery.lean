import Redisson.DeliveryCounts
import Redisson.ReconnectLoop

/-! From the calls of the service to the calls of its listeners: what a message finds in the maps
that any number of concurrent `psubscribe` and `remove_listener` calls have left. -/

namespace Redisson

open LabelledRuns

/-- A `psubscribe` brings listeners made for its pattern, as `add_pubsub_listener` makes them, and
the connections that break are those to nodes of the cluster. -/
def SubEvent.WellFormed (cfg : SubscriptionConfig) : SubEvent → Prop
  | check _ p ls => ∀ l ∈ ls, l.name = p.str
  | disconnect n | reconnect _ n => n ∈ cfg.nodes
  | _ => True

namespace SubThread

/-- The listeners of a `psubscribe` that has looked its pattern up and not yet added them. -/
def checking : SubThread → ChannelName → List PatternListener
  | checked p ls _, q => if q = p then ls else []
  | _, _ => []

/-- What a reconnect task is to subscribe on its node. -/
def collected (cfg : SubscriptionConfig) : SubThread → Prop
  | scanning n _ patterns | resubscribing n patterns =>
    cfg.mode = .cluster ∧ n ∈ cfg.nodes ∧ ∀ q ∈ patterns, q.isKeyspace = true
  | subscribing p _ todo _ => ∀ c ∈ todo, c ∈ cfg.carriers p
  | _ => True

theorem carriers_of_collected {cfg : SubscriptionConfig} {n : Server} {p : ChannelName}
    (hmode : cfg.mode = .cluster) (hn : n ∈ cfg.nodes) (hp : p.isKeyspace = true) :
    .clusterNode n ∈ cfg.carriers p := by
  have hper : p.perNode cfg.mode = true := by simp [ChannelName.perNode, hmode, hp]
  unfold SubscriptionConfig.carriers
  rw [if_pos hper]
  exact List.mem_map_of_mem hn

theorem call_collected {cfg : SubscriptionConfig} {x : SubThread} {c : PubSubConnection}
    {w : WireCall} (h : x.call c = some w) (hx : x.collected cfg) :
    (w.subscribe = true → ∀ q ∈ w.patterns, c ∈ cfg.carriers q) ∧
      w.next.collected cfg ∧ w.onError.collected cfg := by
  rcases call_cases h with ⟨p, ls, todo, failed, rfl, hc, rfl⟩ | ⟨ids, normal, keyspace, rfl, -, rfl⟩ |
    ⟨keyspace, nodes, n, rfl, -, rfl⟩ | ⟨n, patterns, rfl, rfl, rfl⟩
  · refine ⟨fun _ q hq => ?_, fun c' hc' => hx c' (List.mem_of_mem_erase hc'),
      fun c' hc' => hx c' (List.mem_of_mem_erase hc')⟩
    rw [List.mem_singleton.mp hq]
    exact hx c hc
  · exact ⟨nofun, trivial, trivial⟩
  · exact ⟨nofun, trivial, trivial⟩
  · obtain ⟨hmode, hn, hkeyspace⟩ := hx
    exact ⟨fun _ q hq => carriers_of_collected hmode hn (hkeyspace q hq), trivial, trivial⟩

/-- A `remove_listener` of the listener that has yet to come to the pattern. -/
def StillToRemove (p : ChannelName) (l : PatternListener) : SubThread → Prop
  | removing ids todo _ _ | emptied ids _ todo _ _ => l.id ∈ ids ∧ p ∈ todo
  | _ => False

theorem call_not_stillToRemove {x : SubThread} {c : PubSubConnection} {w : WireCall}
    (h : x.call c = some w) (p : ChannelName) (l : PatternListener) : ¬ x.StillToRemove p l := by
  rcases call_cases h with ⟨q, ls, todo, failed, rfl, -, -⟩ | ⟨ids, normal, keyspace, rfl, -, -⟩ |
    ⟨keyspace, nodes, n, rfl, -, -⟩ | ⟨n, patterns, rfl, -, -⟩ <;> simp [StillToRemove]

theorem call_checking {x : SubThread} {c : PubSubConnection} {w : WireCall}
    (h : x.call c = some w) (q : ChannelName) : w.next.checking q = [] ∧ w.onError.checking q = [] := by
  rcases call_cases h with ⟨p, ls, todo, failed, rfl, -, rfl⟩ | ⟨ids, normal, keyspace, rfl, -, rfl⟩ |
    ⟨keyspace, nodes, n, rfl, -, rfl⟩ | ⟨n, patterns, rfl, -, rfl⟩ <;> exact ⟨rfl, rfl⟩

end SubThread

namespace SubscriptionState

variable {cfg : SubscriptionConfig} {s s' : SubscriptionState} {e : SubEvent}

/-! What one step can do to the maps, to Redis and to the threads. -/

theorem mem_listeners_iff {p : ChannelName} {l : PatternListener} :
    l ∈ s.listeners p ↔ ∃ ls, s.maps.lookup p.patternMap p = some ls ∧ l ∈ ls := by
  unfold listeners entry
  cases s.maps.lookup p.patternMap p <;> simp

/-- A step writes the entry of one pattern at most, and only `extend` brings listeners to it. -/
theorem maps_cases (h : SubStep cfg s e s') :
    s'.maps = s.maps ∨ ∃ p o, s'.maps = s.maps.put p.patternMap p o ∧
      ∀ l ∈ o.getD [], l ∈ s.listeners p ∨ ∃ t, l ∈ (s.threads t).checking p := by
  have hentry : ∀ p, (s.maps.lookup p.patternMap p).getD [] = s.listeners p := fun _ => rfl
  cases h with
  | @extend t p ls already ht =>
    refine .inr ⟨p, some (s.listeners p ++ ls), rfl, fun l hl => ?_⟩
    rcases List.mem_append.mp hl with hl | hl
    · exact .inl hl
    · exact .inr ⟨t, by simpa [ht, SubThread.checking] using hl⟩
  | @finishFailed t p ls ht =>
    refine .inr ⟨p, _, rfl, fun l hl => ?_⟩
    cases hls : s.maps.lookup p.patternMap p <;> simp [hls] at hl
  | @retain t ids p todo normal keyspace ls ht he =>
    refine .inr ⟨p, _, rfl, fun l hl => .inl ?_⟩
    have hls : s.maps.lookup p.patternMap p = some ls := he
    rw [hls] at hl
    rw [← hentry, hls]
    exact List.mem_of_mem_filter hl
  | @erase t ids p todo normal keyspace ht =>
    exact .inr ⟨p, none, rfl, nofun⟩
  | _ => exact .inl rfl

theorem subscribed_cases (h : SubStep cfg s e s') {c : PubSubConnection} {q : ChannelName}
    (hsub : s'.subscribed c q = true) : s.subscribed c q = true ∨
      ∃ t call, (s.threads t).call c = some call ∧ call.subscribe = true ∧ q ∈ call.patterns := by
  have hperform : ∀ {t c' call}, (s.threads t).call c' = some call →
      s.perform c' call c q = true → s.subscribed c q = true ∨
      ∃ t call, (s.threads t).call c = some call ∧ call.subscribe = true ∧ q ∈ call.patterns := by
    intro t c' call ht hp
    unfold perform at hp
    by_cases hcq : c = c' ∧ q ∈ call.patterns
    · rw [if_pos hcq] at hp
      exact .inr ⟨t, call, hcq.1 ▸ ht, hp, hcq.2⟩
    · rw [if_neg hcq] at hp
      exact .inl hp
  cases h with
  | deliver ht hc => exact hperform ht hsub
  | @fail t c' performed call ht =>
    cases performed with
    | true => exact hperform ht hsub
    | false => exact .inl hsub
  | disconnect hm =>
    refine .inl ?_
    have hand := (Bool.and_eq_true _ _).mp hsub
    exact hand.2
  | _ => exact .inl hsub

theorem connected_subscriber (h : SubStep cfg s e s')
    (hs : s.connected .subscriber = true) : s'.connected .subscriber = true := by
  cases h with
  | disconnect hm => simpa using hs
  | reconnect ht hm hc => simpa using hs
  | _ => exact hs

theorem forall_setThread {P : Nat → SubThread → Prop} {t : Nat} {x : SubThread}
    (hs : ∀ i, P i (s.threads i)) (hx : P t x) :
    ∀ i, P i (Function.update s.threads t x i) :=
  (Function.forall_update_iff s.threads P).mpr ⟨hx, fun i _ => hs i⟩

theorem checking_cases (h : SubStep cfg s e s') : ∀ t q, ∀ l ∈ (s'.threads t).checking q,
    l ∈ (s.threads t).checking q ∨ ∃ ls, e = .check t q ls ∧ l ∈ ls := by
  have hset : ∀ {t : Nat} {x : SubThread}, (∀ q, x.checking q = []) → ∀ i q,
      ∀ l ∈ (Function.update s.threads t x i).checking q,
        l ∈ (s.threads i).checking q ∨ ∃ ls, e = .check i q ls ∧ l ∈ ls := by
    intro t x hx
    refine forall_setThread (P := fun i y => ∀ q, ∀ l ∈ SubThread.checking y q,
      l ∈ (s.threads i).checking q ∨ ∃ ls, e = .check i q ls ∧ l ∈ ls) (fun i q l hl => .inl hl) ?_
    intro q l hl
    rw [hx q] at hl
    cases hl
  cases h with
  | @check t p ls ht =>
    refine forall_setThread (P := fun i y => ∀ q, ∀ l ∈ SubThread.checking y q,
      l ∈ (s.threads i).checking q ∨ ∃ ls', SubEvent.check t p ls = .check i q ls' ∧ l ∈ ls')
      (fun i q l hl => .inl hl) ?_
    intro q l hl
    by_cases hq : q = p
    · subst hq
      exact .inr ⟨ls, rfl, by simpa [SubThread.checking] using hl⟩
    · simp [SubThread.checking, hq] at hl
  | extend ht => exact hset fun _ => by split <;> rfl
  | deliver ht hc => exact hset fun q => (SubThread.call_checking ht q).1
  | fail ht => exact hset fun q => (SubThread.call_checking ht q).2
  | fetchEntries ht => exact hset fun _ => by split <;> rfl
  | retain ht he => exact hset fun _ => by split <;> rfl
  | erase ht => exact hset fun _ => by split <;> rfl
  | endScan ht hk => exact hset fun _ => by split <;> rfl
  | disconnect hm => exact fun i q l hl => .inl hl
  | _ => exact hset fun _ => rfl

/-- Every pattern is in the map of its kind. -/
def Placed (s : SubscriptionState) : Prop := ∀ k p, (s.maps.lookup k p).isSome → k = p.patternMap

theorem placed_step (hs : s.Placed) (h : SubStep cfg s e s') : s'.Placed := by
  intro k q hq
  rcases maps_cases h with hmaps | ⟨p, o, hmaps, -⟩
  · exact hs k q (hmaps ▸ hq)
  · rw [hmaps, ListenerMaps.lookup_put] at hq
    by_cases hsame : k = p.patternMap ∧ q = p
    · rw [hsame.1, hsame.2]
    · rw [if_neg hsame] at hq
      exact hs k q hq

/-- Redis is only asked for a pattern where the pattern is carried. -/
structure WellPlaced (cfg : SubscriptionConfig) (s : SubscriptionState) : Prop where
  placed : s.Placed
  named : ∀ p, ∀ l ∈ s.listeners p, l.name = p.str
  checked : ∀ t p, ∀ l ∈ (s.threads t).checking p, l.name = p.str
  collected : ∀ t, (s.threads t).collected cfg
  carried : ∀ c p, s.subscribed c p = true → c ∈ cfg.carriers p
  connected : s.connected .subscriber = true

theorem wellPlaced_new (cfg : SubscriptionConfig) : new.WellPlaced cfg where
  placed k p hp := by cases k <;> cases hp
  named p l hl := by
    have hnone : new.listeners p = [] := by
      unfold listeners entry ChannelName.patternMap
      split <;> rfl
    rw [hnone] at hl
    cases hl
  checked _ _ _ hl := by cases hl
  collected _ := trivial
  carried _ _ hsub := by cases hsub
  connected := rfl

theorem collected_step (hs : s.WellPlaced cfg) (he : e.WellFormed cfg) (h : SubStep cfg s e s') :
    ∀ t, (s'.threads t).collected cfg := by
  have hset : ∀ {t : Nat} {x : SubThread}, x.collected cfg →
      ∀ i, (Function.update s.threads t x i).collected cfg := fun hx =>
    forall_setThread (P := fun _ y => SubThread.collected cfg y) hs.collected hx
  cases h with
  | @extend t p ls already ht =>
    refine hset ?_
    cases already with
    | true => exact fun c hc => by cases hc
    | false => trivial
  | send ht => exact hset fun c hc => hc
  | @deliver t c call ht hc => exact hset (SubThread.call_collected ht (hs.collected t)).2.1
  | @fail t c performed call ht => exact hset (SubThread.call_collected ht (hs.collected t)).2.2
  | retain ht hl => exact hset (by split <;> trivial)
  | erase ht => exact hset (by split <;> trivial)
  | fetchEntries ht => exact hset (by split <;> trivial)
  | disconnect hm => exact hs.collected
  | reconnect ht hm hc => exact hset ⟨hm, he, by simp⟩
  | @scan t p n seen patterns ht hp =>
    obtain ⟨hmode, hn, hkeyspace⟩ := ht ▸ hs.collected t
    refine hset ⟨hmode, hn, fun q hq => ?_⟩
    by_cases hlook : (s.maps.lookup .keyspacePatternListeners p).isSome = true
    · rw [if_pos hlook] at hq
      rcases List.mem_append.mp hq with hq | hq
      · exact hkeyspace q hq
      · rw [List.mem_singleton.mp hq]
        have hmap := hs.placed _ p hlook
        by_contra hno
        simp [ChannelName.patternMap, hno] at hmap
    · rw [if_neg hlook] at hq
      exact hkeyspace q hq
  | @endScan t n seen patterns ht hk =>
    have hcollected := ht ▸ hs.collected t
    refine hset ?_
    split
    · trivial
    · exact hcollected
  | _ => exact hset trivial

theorem wellPlaced_step (hs : s.WellPlaced cfg) (he : e.WellFormed cfg)
    (h : SubStep cfg s e s') : s'.WellPlaced cfg where
  placed := placed_step hs.placed h
  named q l hl := by
    rcases maps_cases h with hmaps | ⟨p, o, hmaps, ho⟩
    · exact hs.named q l (by simpa [listeners, entry, hmaps] using hl)
    · unfold listeners at hl
      rw [entry_put hmaps] at hl
      by_cases hq : q = p
      · rw [if_pos hq] at hl
        rcases ho l hl with hl | ⟨t, hl⟩
        · exact hq ▸ hs.named p l hl
        · exact hq ▸ hs.checked t p l hl
      · rw [if_neg hq] at hl
        exact hs.named q l hl
  checked t q l hl := by
    rcases checking_cases h t q l hl with hl | ⟨ls, rfl, hl⟩
    · exact hs.checked t q l hl
    · exact he l hl
  collected := collected_step hs he h
  carried c q hsub := by
    rcases subscribed_cases h hsub with hsub | ⟨t, call, ht, hcall, hq⟩
    · exact hs.carried c q hsub
    · exact (SubThread.call_collected ht (hs.collected t)).1 hcall q hq
  connected := connected_subscriber h hs.connected

/-! Messages at rest. -/

/-- Redis sends a published message from every node, and a key event from the node of its key
alone. `home` is the node that the subscriber's own connection is to. -/
def Reaches (cfg : SubscriptionConfig) (home origin : Server) (n : Notification) :
    PubSubConnection → Prop
  | .subscriber => n.isKeyspace = true → cfg.mode = .cluster → origin = home
  | .clusterNode m => n.isKeyspace = true → origin = m

/-- What Redis sends for one message: once for each pattern that is subscribed on a connection
which the message reaches, and that matches. -/
structure Sent (cfg : SubscriptionConfig) (s : SubscriptionState) (redis : RedisMatches)
    (home origin : Server) (n : Notification) (sent : List (PubSubConnection × ChannelName)) :
    Prop where
  nodup : sent.Nodup
  mem_iff : ∀ c p, (c, p) ∈ sent ↔ s.subscribed c p = true ∧ Reaches cfg home origin n c ∧
    redis (utf8Bytes p.str) n.rawChannel = true

def callCount (s : SubscriptionState) (sent : List (PubSubConnection × ChannelName))
    (n : Notification) (p : ChannelName) (l : PatternListener) : Nat :=
  (sent.flatMap fun _ => s.maps.receive n).countP fun c => c.pattern = p ∧ c.listener = l

/-- The maps of a well placed state are a registry. -/
def WellPlaced.registry (h : s.WellPlaced cfg) : PatternRegistry where
  maps := s.maps
  ordinary p hp := by
    have hmap := h.placed .patternListeners p (AList.lookup_isSome.mpr hp)
    cases hk : p.isKeyspace with
    | false => rfl
    | true => simp [ChannelName.patternMap, hk] at hmap
  keyspace p hp := by
    have hmap := h.placed .keyspacePatternListeners p (AList.lookup_isSome.mpr hp)
    cases hk : p.isKeyspace with
    | true => rfl
    | false => simp [ChannelName.patternMap, hk] at hmap
  named k p ls hls l hl := by
    obtain rfl := h.placed k p (by simp [hls])
    refine h.named p l ?_
    simp [listeners, entry, hls, hl]

theorem WellPlaced.mem_patterns (h : s.WellPlaced cfg) {p : ChannelName} :
    p ∈ h.registry.patterns ↔ (s.entry p).isSome := by
  have hk := @h.placed .keyspacePatternListeners p
  have ho := @h.placed .patternListeners p
  have hl : ∀ k, (s.maps.lookup k p).isSome ↔ p ∈ s.maps.get k := fun k => AList.lookup_isSome
  unfold PatternRegistry.patterns entry
  rw [List.mem_append, hl]
  constructor
  · rintro (hp | hp)
    · exact ho ((hl _).mpr hp) ▸ hp
    · exact hk ((hl _).mpr hp) ▸ hp
  · intro hp
    unfold ChannelName.patternMap at hp
    split at hp
    · exact .inr hp
    · exact .inl hp

theorem callCount_eq (h : s.WellPlaced cfg) (sent : List (PubSubConnection × ChannelName))
    {n : Notification} (hvalid : ValidUtf8 n.rawChannel) (p : ChannelName) (l : PatternListener) :
    s.callCount sent n p l =
      sent.length * if PatternRegistry.Serves n p then (s.listeners p).count l else 0 := by
  have hone := h.registry.countP_dispatch n p l
  unfold callCount
  rw [ListenerMaps.receive_of_valid hvalid]
  induction sent with
  | nil => simp
  | cons x sent ih =>
    rw [List.flatMap_cons, List.countP_append, ih, List.length_cons, Nat.succ_mul, Nat.add_comm]
    exact congrArg _ hone

theorem exists_carrier {home origin : Server} {n : Notification} {p : ChannelName}
    (horigin : cfg.mode = .cluster → origin ∈ cfg.nodes) (hclass : p.isKeyspace = n.isKeyspace) :
    ∃ c ∈ cfg.carriers p, Reaches cfg home origin n c := by
  unfold SubscriptionConfig.carriers
  by_cases hper : p.perNode cfg.mode = true
  · rw [if_pos hper]
    have hmode : cfg.mode = .cluster ∧ p.isKeyspace = true := by
      simpa [ChannelName.perNode] using hper
    exact ⟨.clusterNode origin, List.mem_map_of_mem (horigin hmode.1), fun _ => rfl⟩
  · rw [if_neg hper]
    refine ⟨.subscriber, List.mem_singleton_self _, fun hn hmode => ?_⟩
    have hyes : p.perNode cfg.mode = true := by
      simp [ChannelName.perNode, hmode, hclass, hn]
    exact absurd hyes hper

theorem carrier_unique {home origin : Server} {n : Notification} {p : ChannelName}
    {c c' : PubSubConnection} (hclass : p.isKeyspace = n.isKeyspace) (hc : c ∈ cfg.carriers p)
    (hc' : c' ∈ cfg.carriers p) (hr : Reaches cfg home origin n c)
    (hr' : Reaches cfg home origin n c') : c' = c := by
  unfold SubscriptionConfig.carriers at hc hc'
  by_cases hper : p.perNode cfg.mode = true
  · rw [if_pos hper] at hc hc'
    have hn : n.isKeyspace = true := by
      rw [← hclass]
      exact ((Bool.and_eq_true _ _).mp hper).2
    obtain ⟨m, -, rfl⟩ := List.mem_map.mp hc
    obtain ⟨m', -, rfl⟩ := List.mem_map.mp hc'
    rw [← hr hn, ← hr' hn]
  · rw [if_neg hper] at hc hc'
    rw [List.mem_singleton.mp hc, List.mem_singleton.mp hc']

theorem connected_carrier (h : s.WellPlaced cfg)
    (hup : ∀ m ∈ cfg.nodes, s.connected (.clusterNode m) = true) {p : ChannelName}
    {c : PubSubConnection} (hc : c ∈ cfg.carriers p) : s.connected c = true := by
  unfold SubscriptionConfig.carriers at hc
  split at hc
  · obtain ⟨m, hm, rfl⟩ := List.mem_map.mp hc
    exact hup m hm
  · rw [List.mem_singleton.mp hc]
    exact h.connected

section AtRest

variable {redis : RedisMatches} {home origin : Server} {n : Notification}
  {sent : List (PubSubConnection × ChannelName)}

/-- Where the maps and Redis agree, Redis sends what the maps have listeners for. -/
theorem mem_sent (h : s.WellPlaced cfg) (hagrees : s.Agrees cfg) (hf : s.failed = false)
    (hup : ∀ m ∈ cfg.nodes, s.connected (.clusterNode m) = true)
    (hsent : s.Sent cfg redis home origin n sent) {c : PubSubConnection} {p : ChannelName} :
    (c, p) ∈ sent ↔ (c ∈ cfg.carriers p ∧ s.listeners p ≠ []) ∧ Reaches cfg home origin n c ∧
      redis (utf8Bytes p.str) n.rawChannel = true := by
  have hsub : s.subscribed c p = true ↔ c ∈ cfg.carriers p ∧ s.listeners p ≠ [] := by
    constructor
    · intro hs
      have hc := h.carried c p hs
      exact ⟨hc, (hagrees.carried hf p c hc (connected_carrier h hup hc)).mp hs⟩
    · intro hs
      exact (hagrees.carried hf p c hs.1 (connected_carrier h hup hs.1)).mpr hs.2
  rw [hsent.mem_iff, hsub]

theorem callCount_of_agrees (h : s.WellPlaced cfg) (hagrees : s.Agrees cfg)
    (hf : s.failed = false) (hup : ∀ m ∈ cfg.nodes, s.connected (.clusterNode m) = true)
    (horigin : cfg.mode = .cluster → origin ∈ cfg.nodes)
    (hsent : s.Sent cfg redis home origin n sent) (hvalid : ValidUtf8 n.rawChannel)
    (hmatched : h.registry.WellMatched redis n) (p : ChannelName) (l : PatternListener) : s.callCount sent n p l =
      if redis (utf8Bytes p.str) n.rawChannel then (s.listeners p).count l else 0 := by
  have hmem := @mem_sent cfg s redis home origin n sent h hagrees hf hup hsent
  have hpatterns : ∀ q, s.listeners q ≠ [] → q ∈ h.registry.patterns := by
    intro q hq
    refine h.mem_patterns.mpr ?_
    unfold listeners at hq
    cases he : s.entry q with
    | none => simp [he] at hq
    | some ls => rfl
  rw [callCount_eq h sent hvalid]
  by_cases hne : s.listeners p = []
  · simp [hne]
  · have hp := hmatched p (hpatterns p hne) hne
    by_cases hr : redis (utf8Bytes p.str) n.rawChannel = true
    · rw [if_pos hr] at hp ⊢
      obtain ⟨hserves, hall⟩ := hp
      obtain ⟨c, hc, hreach⟩ := @exists_carrier cfg home origin n p horigin hserves.1
      have hcp : (c, p) ∈ sent := hmem.mpr ⟨⟨hc, hne⟩, hreach, hr⟩
      have honly : ∀ x, x ∈ sent ↔ x ∈ [(c, p)] := by
        rintro ⟨c', q⟩
        rw [List.mem_singleton]
        constructor
        · intro hx
          obtain ⟨⟨hc', hq⟩, hreach', hrq⟩ := hmem.mp hx
          obtain rfl := hall q (hpatterns q hq) hrq
          rw [carrier_unique hserves.1 hc hc' hreach hreach']
        · intro hx
          exact hx ▸ hcp
      have hlength := ((List.perm_ext_iff_of_nodup hsent.nodup (List.nodup_singleton _)).mpr
        honly).length_eq
      rw [hlength, if_pos hserves, List.length_singleton, Nat.one_mul]
    · rw [if_neg hr] at hp ⊢
      by_cases hserves : PatternRegistry.Serves n p
      · have hnil : sent = [] := by
          refine List.eq_nil_iff_forall_not_mem.mpr fun ⟨c, q⟩ hx => ?_
          obtain ⟨⟨-, hq⟩, -, hrq⟩ := hmem.mp hx
          rw [hp hserves q (hpatterns q hq)] at hrq
          cases hrq
        rw [hnil, List.length_nil, Nat.zero_mul]
      · rw [if_neg hserves, Nat.mul_zero]

end AtRest

theorem wellPlaced_of_orderly {es : List SubEvent}
    (h : GuardedRun (subStep cfg) (fun s e => Orderly cfg s e ∧ e.WellFormed cfg) new es s)
    (hq : s.Quiescent) : s.WellPlaced cfg ∧ s.Agrees cfg :=
  ⟨h.invariant (fun _ _ _ hs hok hstep => wellPlaced_step hs hok.2 (SubStep.of_step hstep))
    (wellPlaced_new cfg), agrees_of_orderly (h.mono fun _ _ hok => hok.1) hq⟩

/-! A listener that was removed. -/

theorem stillToRemove_cases {t : Nat} {p : ChannelName} {l : PatternListener}
    (h : SubStep cfg s e s') (ht : (s.threads t).StillToRemove p l) :
    (s'.threads t).StillToRemove p l ∨ l ∉ s'.listeners p := by
  have hother : ∀ {i : Nat} {x : SubThread}, ¬ (s.threads i).StillToRemove p l →
      (Function.update s.threads i x t).StillToRemove p l ∨ l ∉ s'.listeners p := by
    intro i x hi
    have hti : t ≠ i := fun hti => hi (hti ▸ ht)
    exact .inl (by rwa [Function.update_of_ne hti])
  have hsame : ∀ {i : Nat} {x : SubThread}, (t = i → x.StillToRemove p l ∨ l ∉ s'.listeners p) →
      (Function.update s.threads i x t).StillToRemove p l ∨ l ∉ s'.listeners p := by
    intro i x hx
    by_cases hti : t = i
    · subst hti
      simpa using hx rfl
    · exact .inl (by rwa [Function.update_of_ne hti])
  cases h with
  | check hi => exact hother (by simp [hi, SubThread.StillToRemove])
  | extend hi => exact hother (by simp [hi, SubThread.StillToRemove])
  | send hi => exact hother (by simp [hi, SubThread.StillToRemove])
  | subscribeWithoutEntries hi hp => exact hother (by simp [hi, SubThread.StillToRemove])
  | removeWithoutEntries hi => exact hother (by simp [hi, SubThread.StillToRemove])
  | deliver hi hc => exact hother (SubThread.call_not_stillToRemove hi p l)
  | fail hi => exact hother (SubThread.call_not_stillToRemove hi p l)
  | finish hi => exact hother (by simp [hi, SubThread.StillToRemove])
  | finishFailed hi => exact hother (by simp [hi, SubThread.StillToRemove])
  | finishRemove hi => exact hother (by simp [hi, SubThread.StillToRemove])
  | beginRemove hi => exact hother (by simp [hi, SubThread.StillToRemove])
  | @retainAbsent i ids q todo normal keyspace hi he =>
    refine hsame fun hti => ?_
    obtain ⟨hid, hmem⟩ : l.id ∈ ids ∧ p ∈ q :: todo := by rwa [hti, hi] at ht
    rcases List.mem_cons.mp hmem with rfl | hmem
    · refine .inr fun hl => ?_
      obtain ⟨ls, hls, -⟩ := mem_listeners_iff.mp hl
      have hnone : s.maps.lookup p.patternMap p = none := he
      exact absurd (hls.symm.trans hnone) nofun
    · exact .inl ⟨hid, hmem⟩
  | @retain i ids q todo normal keyspace ls hi he =>
    refine hsame fun hti => ?_
    obtain ⟨hid, hmem⟩ : l.id ∈ ids ∧ p ∈ q :: todo := by rwa [hti, hi] at ht
    rcases List.mem_cons.mp hmem with rfl | hmem
    · refine .inr fun hl => ?_
      obtain ⟨ls', hls, hl'⟩ := mem_listeners_iff.mp hl
      have hnew : (s.maps.retain p.patternMap p ids).lookup p.patternMap p = some ls' := hls
      have hold : s.maps.lookup p.patternMap p = some ls := he
      rw [ListenerMaps.retain, ListenerMaps.lookup_put_patternMap, if_pos rfl, hold] at hnew
      cases hnew
      simp [retained, hid] at hl'
    · refine .inl ?_
      split <;> exact ⟨hid, hmem⟩
  | @erase i ids q todo normal keyspace hi =>
    refine hsame fun hti => .inl ?_
    obtain ⟨hid, hmem⟩ : l.id ∈ ids ∧ p ∈ todo := by rwa [hti, hi] at ht
    split <;> exact ⟨hid, hmem⟩
  | fetchEntries hi => exact hother (by simp [hi, SubThread.StillToRemove])
  | disconnect hm => exact .inl ht
  | reconnect hi hm hc => exact hother (by simp [hi, SubThread.StillToRemove])
  | scan hi hp => exact hother (by simp [hi, SubThread.StillToRemove])
  | endScan hi hk => exact hother (by simp [hi, SubThread.StillToRemove])

/-- No `psubscribe` is about to add the listener, and the list of the pattern is without it or
some call has yet to take it out. -/
structure Going (t : Nat) (p : ChannelName) (l : PatternListener) (s : SubscriptionState) :
    Prop where
  placed : s.Placed
  unchecked : ∀ i, l ∉ (s.threads i).checking p
  removed : (s.threads t).StillToRemove p l ∨ l ∉ s.listeners p

theorem going_step {t : Nat} {p : ChannelName} {l : PatternListener} (hs : s.Going t p l)
    (he : ∀ i ls, e = .check i p ls → l ∉ ls) (h : SubStep cfg s e s') : s'.Going t p l where
  placed := placed_step hs.placed h
  unchecked i hl := by
    rcases checking_cases h i p l hl with hl | ⟨ls, hcheck, hl⟩
    · exact hs.unchecked i hl
    · exact he i ls hcheck hl
  removed := by
    rcases hs.removed with ht | hl
    · exact stillToRemove_cases h ht
    · refine .inr fun hl' => hl ?_
      rcases maps_cases h with hmaps | ⟨q, o, hmaps, ho⟩
      · simpa [listeners, entry, hmaps] using hl'
      · unfold listeners at hl'
        rw [entry_put hmaps] at hl'
        by_cases hq : p = q
        · subst hq
          rw [if_pos rfl] at hl'
          exact (ho l hl').resolve_right fun ⟨i, hi⟩ => hs.unchecked i hi
        · rwa [if_neg hq] at hl'

theorem listener_of_dispatch (hs : s.Placed) {e : PubSubEvent} {c : ListenerCall}
    (hc : c ∈ s.maps.dispatch e) : c.listener ∈ s.listeners c.pattern := by
  obtain ⟨⟨q, ls⟩, hentry, hcall⟩ := List.mem_flatMap.mp hc
  have hls : s.maps.lookup e.map q = some ls := AList.mem_lookup_iff.mpr hentry
  obtain ⟨l, hl, hpm⟩ :
      ∃ l ∈ ls, l.onPatternMessage q (e.presented q).1 (e.presented q).2 = some c := by
    unfold PubSubEvent.callListeners at hcall
    split at hcall
    · exact List.mem_filterMap.mp hcall
    · cases hcall
  have hpattern : c.pattern = q ∧ c.listener = l := by
    unfold PatternListener.onPatternMessage at hpm
    split at hpm
    · cases hpm
      exact ⟨rfl, rfl⟩
    · cases hpm
  have hmap := hs e.map q (by simp [hls])
  rw [hpattern.1, hpattern.2]
  exact mem_listeners_iff.mpr ⟨ls, hmap ▸ hls, hl⟩

/-- Once a `remove_listener` has returned, no message calls what it removed, whatever other calls
did in the meantime, unless one of them added it again. -/
theorem not_called_after_removal {es₀ es : List SubEvent} {s₀ s₁ : SubscriptionState} {t : Nat}
    {names : List ChannelName} {ids : List ListenerId} {p : ChannelName} {l : PatternListener}
    (hreach : run (subStep cfg) new es₀ = some s₀)
    (hbegin : subStep cfg s₀ (.beginRemove t names ids) = some s₁) (hp : p ∈ names)
    (hid : l.id ∈ ids) (hfree : ∀ i, l ∉ (s₀.threads i).checking p)
    (hes : ∀ i ls, .check i p ls ∈ es → l ∉ ls) (hrun : run (subStep cfg) s₁ es = some s)
    (hdone : (s.threads t).Resting) (e : PubSubEvent) :
    ∀ c ∈ s.maps.dispatch e, c.pattern = p → c.listener ≠ l := by
  have hplaced : s₀.Placed := run_invariant
    (fun _ _ _ hs hstep => placed_step hs (SubStep.of_step hstep)) (wellPlaced_new cfg).placed hreach
  have hs₁ : s₁.Going t p l := by
    have hrel := SubStep.of_step hbegin
    cases hrel with
    | beginRemove ht =>
      refine ⟨hplaced, ?_, .inl ?_⟩
      · exact forall_setThread (P := fun _ y => l ∉ SubThread.checking y p) hfree
          (by simp [SubThread.checking])
      · simpa [setThread, SubThread.StillToRemove] using And.intro hid hp
  have hadmitted : ∀ e ∈ es, ∀ i ls, e = SubEvent.check i p ls → l ∉ ls := by
    rintro e he i ls rfl
    exact hes i ls he
  have hgoing : s.Going t p l := (guardedRun_of_forall hadmitted hrun).invariant
    (fun _ _ _ hs he hstep => going_step hs he (SubStep.of_step hstep)) hs₁
  intro c hc hpattern hl
  have hmem := listener_of_dispatch hgoing.placed hc
  rw [hpattern, hl] at hmem
  rcases hgoing.removed with ht | hnot
  · cases hx : s.threads t <;> simp_all [SubThread.Resting, SubThread.StillToRemove]
  · exact hnot hmem

theorem not_called_after_removal_newsArt : ∃ s,
    run (subStep standalone) new serialRun = some s ∧
      ∀ c ∈ s.maps.dispatch PatternRegistry.newsArt.event,
        c.pattern = newsPattern → c.listener ≠ firstListener := by
  refine ⟨_, rfl, ?_⟩
  refine @not_called_after_removal standalone _ subscribeFirst [.retain 1, .erase 1,
    .deliver 1 .subscriber, .fetchEntries 1] _ _ 1 [newsPattern] [1] newsPattern firstListener rfl
    rfl (List.mem_singleton_self _) (List.mem_singleton_self _) (fun i => ?_) (by simp) rfl trivial _
  match i with
  | 0 => exact List.not_mem_nil
  | i + 1 => exact List.not_mem_nil

end SubscriptionState

/-! The same with the reconnect loop. -/

namespace ReconnectState

open BroadcastLoops SubscriptionState

variable {cfg : SubscriptionConfig} {capacity : Nat} {s : ReconnectState}

def WellFormed (cfg : SubscriptionConfig) : Event SubEvent Server → Prop
  | .other x => x.WellFormed cfg
  | .send n => n ∈ cfg.nodes
  | _ => True

theorem wellFormed_of_steps {e : Event SubEvent Server} {x : SubEvent} (h : WellFormed cfg e)
    (hx : Steps e [x]) : x.WellFormed cfg := by
  cases e with
  | other y =>
    cases List.singleton_inj.mp (hx : [x] = [y])
    exact h
  | send n =>
    obtain ⟨t, ht⟩ := hx
    cases List.singleton_inj.mp ht
    exact h
  | _ => cases (hx : [x] = [])

/-- When orderly calls and the reconnect loop have come to rest without failure, every node
connected, a message on a UTF-8 channel that is well matched calls every listener of the pattern
it was sent for as often as the listener was added, at least once if its `psubscribe` has
returned, and calls no other. -/
theorem delivered_at_rest {es : List (Event SubEvent Server)}
    (hrun : GuardedRun (step (reconnectLoop cfg capacity))
      (fun s e => (Orderly cfg s e ∧ WellFormed cfg e) ∧ BroadcastLoops.InTime capacity s e) new es s)
    (hcaught : s.phase = .listening s.sent.length) (hq : s.world.Quiescent)
    (hf : s.world.failed = false)
    (hup : ∀ m ∈ cfg.nodes, s.world.connected (.clusterNode m) = true) :
    ∃ reg : PatternRegistry, reg.maps = s.world.maps ∧
      ∀ redis home origin n sent, (cfg.mode = .cluster → origin ∈ cfg.nodes) →
        s.world.Sent cfg redis home origin n sent → ValidUtf8 n.rawChannel →
          reg.WellMatched redis n → ∀ p l,
            s.world.callCount sent n p l =
              (if redis (utf8Bytes p.str) n.rawChannel then (s.world.listeners p).count l else 0) ∧
            (l ∈ s.world.owed p → 0 < (s.world.listeners p).count l) := by
  obtain ⟨ess, -, hcalls⟩ := spawned_run
    (fun s e => SubscriptionState.Orderly cfg s e ∧ e.WellFormed cfg)
    (fun _ _ _ he hx => ⟨orderly_of_steps he.1.1 hx, wellFormed_of_steps he.1.2 hx⟩) hrun
  rw [spawned_of_inTime (hrun.mono fun _ _ he => he.2) hcaught] at hcalls
  obtain ⟨hplaced, hagrees⟩ := SubscriptionState.wellPlaced_of_orderly hcalls hq
  refine ⟨hplaced.registry, rfl, fun redis home origin n sent horigin hsent hvalid hmatched p l => ?_⟩
  refine ⟨SubscriptionState.callCount_of_agrees hplaced hagrees hf hup horigin hsent hvalid hmatched
    p l, fun hl => ?_⟩
  exact List.count_pos_iff.mpr (hagrees.kept p l hl)

/-! One pattern of a standalone server, its listener, and a message. -/

def subscribeNews : List (Event SubEvent Server) :=
  .start :: SubscriptionState.subscribeFirst.map .other

theorem inTime_subscribeNews : ∃ s, GuardedRun (step (reconnectLoop standalone 16))
    (fun s e => (Orderly standalone s e ∧ WellFormed standalone e) ∧ BroadcastLoops.InTime 16 s e) new
      subscribeNews s ∧ s.phase = .listening s.sent.length ∧ s.world.Quiescent := by
  refine ⟨_, ⟨⟨⟨trivial, trivial⟩, trivial⟩, _, rfl,
    ⟨⟨trivial, by simp [WellFormed, SubEvent.WellFormed, firstListener, newsPattern]⟩, trivial⟩,
    _, rfl,
    ⟨⟨?_, trivial⟩, trivial⟩, _, rfl, ⟨⟨trivial, trivial⟩, trivial⟩, _, rfl,
    ⟨⟨?_, trivial⟩, trivial⟩, _, rfl, ⟨⟨?_, trivial⟩, trivial⟩, _, rfl, rfl⟩, rfl, ?_⟩
  · intro p ls already hx
    cases (hx : SubThread.checked newsPattern [firstListener] false = .checked p ls already)
    exact ⟨by simp, nofun⟩
  · exact orderly_subscribe (p := newsPattern) rfl rfl
  · intro p ls hx
    cases (hx : SubThread.subscribing newsPattern [firstListener] [] false =
      .subscribing p ls [] true)
  · intro t
    match t with
    | 0 => trivial
    | t + 1 => trivial

theorem delivered_at_rest_newsArt : ∃ s : ReconnectState,
    run (step (reconnectLoop standalone 16)) new subscribeNews = some s ∧
      s.world.callCount [(.subscriber, newsPattern)] PatternRegistry.newsArt newsPattern
        firstListener = 1 := by
  obtain ⟨s, hrun, hcaught, hq⟩ := inTime_subscribeNews
  have hs := hrun.run_eq
  obtain ⟨reg, hmaps, hcount⟩ :=
    delivered_at_rest hrun hcaught hq (by cases hs; rfl) (by simp [standalone])
  refine ⟨s, hs, ?_⟩
  have hmatched : reg.WellMatched RedisGlob.glob PatternRegistry.newsArt := by
    unfold PatternRegistry.WellMatched PatternRegistry.patterns PatternRegistry.listeners
    rw [hmaps]
    cases hs
    decide +kernel
  have hone := (hcount RedisGlob.glob ⟨"a", 1⟩ ⟨"a", 1⟩ PatternRegistry.newsArt
    [(.subscriber, newsPattern)] (by simp [standalone]) ?_ (by decide +kernel) hmatched newsPattern
      firstListener).1
  · rw [hone]
    cases hs
    decide +kernel
  · refine ⟨List.nodup_singleton _, fun c p => ?_⟩
    have hsub : s.world.subscribed c p = true ↔ c = .subscriber ∧ p = newsPattern := by
      cases hs
      change (if c = .subscriber ∧ p ∈ [newsPattern] then true else false) = true ↔ _
      simp
    have hglob : RedisGlob.glob (utf8Bytes newsPattern.str)
        PatternRegistry.newsArt.rawChannel = true := by decide +kernel
    rw [hsub, List.mem_singleton, Prod.mk.injEq]
    constructor
    · rintro ⟨rfl, rfl⟩
      exact ⟨⟨rfl, rfl⟩, nofun, hglob⟩
    · exact And.left

end ReconnectState

end Redisson
