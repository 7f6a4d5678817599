import Redisson.SubscriptionSystem

/-! When the listener maps and Redis agree at rest. Each call is one step ahead of Redis, so
what is invariant is that every difference is owed by some thread that has yet to act. -/

namespace Redisson

open LabelledRuns

namespace SubscriptionState

def PendingSubscribe (cfg : SubscriptionConfig) (s : SubscriptionState) (c : PubSubConnection)
    (p : ChannelName) : Prop :=
  ∃ t, (s.threads t).OwesSubscribe cfg c p

def PendingUnsubscribe (cfg : SubscriptionConfig) (s : SubscriptionState) (c : PubSubConnection)
    (p : ChannelName) : Prop :=
  ∃ t, (s.threads t).OwesUnsubscribe cfg c p

/-- The listener was reported as registered, or its `psubscribe` is under way. -/
def Protected (s : SubscriptionState) (p : ChannelName) (l : PatternListener) : Prop :=
  l ∈ s.owed p ∨ ∃ t, l ∈ (s.threads t).adding p

def Quiescent (s : SubscriptionState) : Prop := ∀ t, (s.threads t).Resting

structure Agrees (cfg : SubscriptionConfig) (s : SubscriptionState) : Prop where
  kept : ∀ p, ∀ l ∈ s.owed p, l ∈ s.listeners p
  carried : s.failed = false → ∀ p, ∀ c ∈ cfg.carriers p, s.connected c = true →
    (s.subscribed c p = true ↔ s.listeners p ≠ [])

/-- What the steps of different calls must not do to each other: a `psubscribe` that found its
pattern registered still finds it when it adds its (one or more) listeners; neither the
`clear` of a failed one nor a `retain` hits a protected listener; a list found empty is
still empty when its entry is removed; and Redis performs a call for a pattern only while
the map asks for it, or while the opposite call is still to come. -/
def Orderly (cfg : SubscriptionConfig) (s : SubscriptionState) : SubEvent → Prop
  | .extend t => ∀ p ls already, s.threads t = .checked p ls already →
      ls ≠ [] ∧ (already = true → (s.entry p).isSome)
  | .finish t => ∀ p ls, s.threads t = .subscribing p ls [] true →
      ∀ l ∈ s.listeners p, ¬ s.Protected p l
  | .retain t => ∀ ids p todo normal keyspace,
      s.threads t = .removing ids (p :: todo) normal keyspace →
      ∀ l ∈ s.listeners p, l.id ∈ ids → ¬ s.Protected p l
  | .erase t => ∀ ids p todo normal keyspace,
      s.threads t = .emptied ids p todo normal keyspace → s.listeners p = []
  | .deliver t c => ∀ call, (s.threads t).call c = some call → ∀ q ∈ call.patterns,
      if call.subscribe then (s.entry q).isSome ∨ s.PendingUnsubscribe cfg c q
      else s.entry q = none ∨ s.PendingSubscribe cfg c q
  | _ => True

/-! The map keeps what it must. -/

def Held (s : SubscriptionState) : Prop := ∀ p l, s.Protected p l → l ∈ s.listeners p

theorem Held.of_protected {s s' : SubscriptionState} (h : s.Held) (hmaps : s'.maps = s.maps)
    (hprot : ∀ p l, s'.Protected p l → s.Protected p l) : s'.Held := by
  intro p l hp
  have hl := h p l (hprot p l hp)
  simpa [listeners, entry, hmaps] using hl

theorem protected_of_thread {s s' : SubscriptionState} {t : Nat} {x : SubThread}
    {p : ChannelName} {l : PatternListener} (h : s'.Protected p l)
    (hthreads : s'.threads = Function.update s.threads t x)
    (hadding : x.adding p ⊆ (s.threads t).adding p) (howed : s'.owed p ⊆ s.owed p) :
    s.Protected p l := by
  rcases h with h | h
  · exact .inl (howed h)
  · rw [hthreads] at h
    rcases of_exists_update (P := fun y => l ∈ SubThread.adding y p) h with hx | ht
    · exact .inr ⟨t, hadding hx⟩
    · exact .inr ht

theorem Held.of_quiet {s s' : SubscriptionState} {t : Nat} {x : SubThread} (h : s.Held)
    (hmaps : s'.maps = s.maps) (hthreads : s'.threads = Function.update s.threads t x)
    (hx : ∀ p, x.adding p = []) (howed : ∀ p, s'.owed p ⊆ s.owed p) : s'.Held :=
  h.of_protected hmaps fun p _ hp =>
    protected_of_thread hp hthreads (hx p ▸ List.nil_subset _) (howed p)

theorem entry_put {s s' : SubscriptionState} {p : ChannelName}
    {o : Option (List PatternListener)} (hmaps : s'.maps = s.maps.put p.patternMap p o)
    (q : ChannelName) : s'.entry q = if q = p then o else s.entry q := by
  unfold entry
  rw [hmaps, ListenerMaps.lookup_put_patternMap]

theorem mem_listeners_put {s s' : SubscriptionState} {p q : ChannelName}
    {o : Option (List PatternListener)} {l : PatternListener}
    (hmaps : s'.maps = s.maps.put p.patternMap p o) (hsame : q = p → l ∈ o.getD [])
    (hother : q ≠ p → l ∈ s.listeners q) : l ∈ s'.listeners q := by
  unfold listeners
  rw [entry_put hmaps]
  by_cases hq : q = p
  · rw [if_pos hq]
    exact hsame hq
  · rw [if_neg hq]
    exact hother hq

theorem Held.of_put {s s' : SubscriptionState} {p : ChannelName} {o : Option (List PatternListener)}
    (h : s.Held) (hmaps : s'.maps = s.maps.put p.patternMap p o)
    (hprot : ∀ q l, s'.Protected q l → s.Protected q l)
    (hput : ∀ l, s.Protected p l → l ∈ s.listeners p → l ∈ o.getD []) : s'.Held := by
  intro q l hp
  have hp' := hprot q l hp
  have hl := h q l hp'
  refine mem_listeners_put hmaps (fun hq => ?_) fun _ => hl
  subst hq
  exact hput l hp' hl

/-- What is protected after listeners were added is so already, or is among them. -/
theorem Held.of_extend {s s' : SubscriptionState} {t : Nat} {x : SubThread} {p : ChannelName}
    {ls : List PatternListener} (h : s.Held)
    (hmaps : s'.maps = s.maps.put p.patternMap p (some (s.listeners p ++ ls)))
    (hthreads : s'.threads = Function.update s.threads t x) (howed : s'.owed = s.owed)
    (hadd : ∀ q, x.adding q = if q = p then ls else []) : s'.Held := by
  intro q l hp
  have hcases : q = p ∧ l ∈ ls ∨ l ∈ s.listeners q := by
    rcases hp with hp | hp
    · rw [howed] at hp
      exact .inr (h q l (.inl hp))
    · rw [hthreads] at hp
      rcases of_exists_update (P := fun y => l ∈ SubThread.adding y q) hp with hx | hs
      · rw [hadd] at hx
        by_cases hq : q = p
        · exact .inl ⟨hq, by simpa [hq] using hx⟩
        · simp [hq] at hx
      · exact .inr (h q l (.inr hs))
  refine mem_listeners_put hmaps (fun hq => ?_) fun hq => ?_
  · subst hq
    rcases hcases with ⟨-, hl⟩ | hl
    · exact List.mem_append_right _ hl
    · exact List.mem_append_left _ hl
  · rcases hcases with ⟨hq', -⟩ | hl
    · exact absurd hq' hq
    · exact hl

/-- A `psubscribe` that returns hands its protection over to what it owes. -/
theorem protected_of_finish {s s' : SubscriptionState} {t : Nat} {p q : ChannelName}
    {ls : List PatternListener} {l : PatternListener}
    (ht : s.threads t = .subscribing p ls [] false) (hthreads : s'.threads = Function.update s.threads t .done)
    (howed : ∀ q, s'.owed q = if q = p then s.owed p ++ ls else s.owed q) (h : s'.Protected q l) :
    s.Protected q l := by
  rcases h with hp | hp
  · rw [howed] at hp
    by_cases hq : q = p
    · subst hq
      rcases List.mem_append.mp (by simpa using hp) with ho | hl
      · exact .inl ho
      · exact .inr ⟨t, by rw [ht]; simpa [SubThread.adding] using hl⟩
    · exact .inl (by simpa [hq] using hp)
  · rw [hthreads] at hp
    rcases of_exists_update (P := fun y => l ∈ SubThread.adding y q) hp with hx | hs
    · cases hx
    · exact .inr hs

theorem held_step {cfg : SubscriptionConfig} {s s' : SubscriptionState} {e : SubEvent}
    (h : s.Held) (hok : Orderly cfg s e) (hstep : SubStep cfg s e s') : s'.Held := by
  cases hstep with
  | check ht =>
    exact h.of_quiet rfl rfl (fun _ => rfl) fun _ => List.Subset.refl _
  | @extend t p ls already ht => exact h.of_extend rfl rfl rfl fun q => by cases already <;> rfl
  | send ht =>
    exact h.of_protected rfl fun q l hp =>
      protected_of_thread hp rfl (by rw [ht]; exact List.Subset.refl _) (List.Subset.refl _)
  | subscribeWithoutEntries ht hp =>
    exact h.of_quiet rfl rfl (fun _ => rfl) fun _ => List.Subset.refl _
  | removeWithoutEntries ht =>
    exact h.of_quiet rfl rfl (fun _ => rfl) fun _ => List.Subset.refl _
  | deliver ht hc =>
    exact h.of_protected rfl fun q l hp =>
      protected_of_thread hp rfl (SubThread.call_adding ht q).1 (List.Subset.refl _)
  | fail ht =>
    exact h.of_protected rfl fun q l hp =>
      protected_of_thread hp rfl (SubThread.call_adding ht q).2 (List.Subset.refl _)
  | @finish t p ls ht =>
    refine h.of_protected rfl fun q l hp => protected_of_finish ht rfl (fun q => ?_) hp
    by_cases hq : q = p <;> simp [hq]
  | @finishFailed t p ls ht =>
    refine h.of_put (p := p) rfl (fun q l hp => ?_) fun l hp hl => absurd hp (hok p ls ht l hl)
    exact protected_of_thread hp rfl (by simp [SubThread.adding]) (List.Subset.refl _)
  | finishRemove ht =>
    exact h.of_quiet rfl rfl (fun _ => rfl) fun _ => List.Subset.refl _
  | beginRemove ht =>
    exact h.of_quiet rfl rfl (fun _ => rfl) fun _ => List.filter_subset_self _
  | retainAbsent ht he =>
    exact h.of_quiet rfl rfl (fun _ => rfl) fun _ => List.Subset.refl _
  | @retain t ids p todo normal keyspace ls ht he =>
    refine h.of_put (p := p) rfl (fun q l hp => ?_) fun l hp hl => ?_
    · exact protected_of_thread hp rfl (by split <;> simp [SubThread.adding]) (List.Subset.refl _)
    · have hid : l.id ∉ ids := fun hid => hok ids p todo normal keyspace ht l hl hid hp
      have hls : l ∈ ls := by simpa [listeners, he] using hl
      have he' : s.maps.lookup p.patternMap p = some ls := he
      simpa [he', retained] using ⟨hls, hid⟩
  | @erase t ids p todo normal keyspace ht =>
    refine h.of_put (p := p) (o := none) rfl (fun q l hp => ?_) fun l _ hl => ?_
    · exact protected_of_thread hp rfl (by split <;> simp [SubThread.adding]) (List.Subset.refl _)
    · rw [hok ids p todo normal keyspace ht] at hl
      cases hl
  | fetchEntries ht =>
    exact h.of_quiet rfl rfl (fun _ => by split <;> rfl) fun _ => List.Subset.refl _
  | disconnect hm => exact h.of_protected rfl fun q l hp => hp
  | reconnect ht hm hc =>
    exact h.of_quiet rfl rfl (fun _ => rfl) fun _ => List.Subset.refl _
  | scan ht hp =>
    exact h.of_quiet rfl rfl (fun _ => rfl) fun _ => List.Subset.refl _
  | endScan ht hk =>
    exact h.of_quiet rfl rfl (fun _ => by split <;> rfl) fun _ => List.Subset.refl _

/-! While no call fails, every difference between the map and Redis is owed by a thread. -/

structure Tracked (cfg : SubscriptionConfig) (s : SubscriptionState) : Prop where
  empty : ∀ p, s.entry p = some [] → ∃ t, (s.threads t).Emptying p
  missing : ∀ p, (s.entry p).isSome → ∀ c ∈ cfg.carriers p, s.connected c = true →
    s.subscribed c p = false → s.PendingSubscribe cfg c p
  stray : ∀ p, s.entry p = none → ∀ c ∈ cfg.carriers p,
    s.subscribed c p = true → s.PendingUnsubscribe cfg c p

theorem Tracked.of_thread {cfg : SubscriptionConfig} {s s' : SubscriptionState} {t : Nat}
    {x : SubThread} (h : s.Tracked cfg) (hmaps : s'.maps = s.maps)
    (hsubscribed : s'.subscribed = s.subscribed) (hconnected : s'.connected = s.connected)
    (hthreads : s'.threads = Function.update s.threads t x)
    (hemptying : ∀ p, (s.threads t).Emptying p → x.Emptying p)
    (hsubscribe : ∀ c p, (s.entry p).isSome → c ∈ cfg.carriers p →
      (s.threads t).OwesSubscribe cfg c p → x.OwesSubscribe cfg c p)
    (hunsubscribe : ∀ c p, (s.threads t).OwesUnsubscribe cfg c p → x.OwesUnsubscribe cfg c p) :
    s'.Tracked cfg := by
  have hentry : ∀ p, s'.entry p = s.entry p := fun p => by unfold entry; rw [hmaps]
  constructor
  · intro p hp
    rw [hthreads]
    exact exists_update (P := fun y => SubThread.Emptying y p) (h.empty p (hentry p ▸ hp))
      (hemptying p)
  · intro p hp c hc hcon hsub
    rw [hentry] at hp
    unfold PendingSubscribe
    rw [hthreads]
    exact exists_update (P := fun y => SubThread.OwesSubscribe cfg y c p)
      (h.missing p hp c hc (hconnected ▸ hcon) (hsubscribed ▸ hsub)) (hsubscribe c p hp hc)
  · intro p hp c hc hsub
    rw [hentry] at hp
    unfold PendingUnsubscribe
    rw [hthreads]
    exact exists_update (P := fun y => SubThread.OwesUnsubscribe cfg y c p)
      (h.stray p hp c hc (hsubscribed ▸ hsub)) (hunsubscribe c p)

/-- A step of one thread that writes the entry of one pattern and loses nothing it owed. -/
theorem Tracked.of_put {cfg : SubscriptionConfig} {s s' : SubscriptionState} {t : Nat}
    {x : SubThread} {p : ChannelName} {o : Option (List PatternListener)} (h : s.Tracked cfg)
    (hmaps : s'.maps = s.maps.put p.patternMap p o)
    (hsubscribed : s'.subscribed = s.subscribed) (hconnected : s'.connected = s.connected)
    (hthreads : s'.threads = Function.update s.threads t x)
    (hemptying : ∀ q, q ≠ p → (s.threads t).Emptying q → x.Emptying q)
    (hsubscribe : ∀ c q, (s.threads t).OwesSubscribe cfg c q → x.OwesSubscribe cfg c q)
    (hunsubscribe : ∀ c q, (s.threads t).OwesUnsubscribe cfg c q → x.OwesUnsubscribe cfg c q)
    (hempty : o = some [] → x.Emptying p)
    (hmissing : o.isSome → ∀ c ∈ cfg.carriers p, s.connected c = true →
      s.subscribed c p = false → x.OwesSubscribe cfg c p ∨ s.PendingSubscribe cfg c p)
    (hstray : o = none → ∀ c ∈ cfg.carriers p, s.subscribed c p = true →
      x.OwesUnsubscribe cfg c p) : s'.Tracked cfg := by
  constructor
  · intro q hq
    rw [entry_put hmaps] at hq
    rw [hthreads]
    by_cases hqp : q = p
    · subst hqp
      exact ⟨t, by simpa using hempty (by simpa using hq)⟩
    · rw [if_neg hqp] at hq
      exact exists_update (P := fun y => SubThread.Emptying y q) (h.empty q hq)
        (hemptying q hqp)
  · intro q hq c hc hcon hsub
    rw [entry_put hmaps] at hq
    rw [hconnected] at hcon
    rw [hsubscribed] at hsub
    have hkeep : s.PendingSubscribe cfg c q → s'.PendingSubscribe cfg c q := fun hh => by
      unfold PendingSubscribe
      rw [hthreads]
      exact exists_update (P := fun y => SubThread.OwesSubscribe cfg y c q) hh (hsubscribe c q)
    by_cases hqp : q = p
    · subst hqp
      rcases hmissing (by simpa using hq) c hc hcon hsub with hx | hh
      · exact ⟨t, by simpa [hthreads] using hx⟩
      · exact hkeep hh
    · rw [if_neg hqp] at hq
      exact hkeep (h.missing q hq c hc hcon hsub)
  · intro q hq c hc hsub
    rw [entry_put hmaps] at hq
    rw [hsubscribed] at hsub
    unfold PendingUnsubscribe
    rw [hthreads]
    by_cases hqp : q = p
    · subst hqp
      exact ⟨t, by simpa using hstray (by simpa using hq) c hc hsub⟩
    · rw [if_neg hqp] at hq
      exact exists_update (P := fun y => SubThread.OwesUnsubscribe cfg y c q)
        (h.stray q hq c hc hsub) (hunsubscribe c q)

theorem perNode_of_carriers {cfg : SubscriptionConfig} {n : Server} {p : ChannelName}
    (h : .clusterNode n ∈ cfg.carriers p) : p.patternMap = .keyspacePatternListeners := by
  have hp : p.perNode cfg.mode = true := by
    by_contra hno
    simp [SubscriptionConfig.carriers, hno] at h
  have hk : p.isKeyspace = true := by
    simp only [ChannelName.perNode, Bool.and_eq_true] at hp
    exact hp.2
  simp [ChannelName.patternMap, hk]

theorem tracked_extend {cfg : SubscriptionConfig} {s : SubscriptionState} {t : Nat}
    {p : ChannelName} {ls : List PatternListener} {already : Bool} (h : s.Tracked cfg)
    (hok : Orderly cfg s (.extend t)) (ht : s.threads t = .checked p ls already) :
    ({ s with maps := s.maps.extend p.patternMap p ls }.setThread t
      (if already then .subscribing p ls [] false else .extended p ls)).Tracked cfg := by
  obtain ⟨hne, halready⟩ := hok p ls already ht
  refine h.of_put (p := p) (o := some (s.listeners p ++ ls)) rfl rfl rfl rfl ?_ ?_ ?_
    (fun hnil => ?_) (fun _ c hc hcon hsub => ?_) fun hnone => ?_
  · rw [ht]; intros; contradiction
  · rw [ht]; intros; contradiction
  · rw [ht]; intros; contradiction
  · exact absurd (List.append_eq_nil_iff.mp (Option.some.inj hnil)).2 hne
  · -- a `psubscribe` that found no entry owes the calls itself
    cases already with
    | true => exact .inr (h.missing p (halready rfl) c hc hcon hsub)
    | false => exact .inl (by simpa [SubThread.OwesSubscribe] using hc)
  · cases hnone

theorem tracked_deliver {cfg : SubscriptionConfig} {s : SubscriptionState} {t : Nat}
    {c : PubSubConnection} {w : WireCall} (h : s.Tracked cfg)
    (hok : Orderly cfg s (.deliver t c)) (ht : (s.threads t).call c = some w) :
    ({ s.setThread t w.next with subscribed := s.perform c w } : SubscriptionState).Tracked
      cfg := by
  constructor
  · intro p hp
    exact exists_update (P := fun y => SubThread.Emptying y p) (h.empty p hp)
      fun hh => absurd hh (SubThread.call_not_emptying ht p)
  · intro p hp c' hc' hcon hsub
    have hkeep : ¬ (w.subscribe = true ∧ c' = c ∧ p ∈ w.patterns) →
        s.PendingSubscribe cfg c' p →
        ∃ i, (Function.update s.threads t w.next i).OwesSubscribe cfg c' p := fun hno hh =>
      exists_update (P := fun y => SubThread.OwesSubscribe cfg y c' p) hh
        fun ho => (ho.next ht).resolve_right hno
    change (if c' = c ∧ p ∈ w.patterns then w.subscribe else s.subscribed c' p) = false at hsub
    by_cases hw : c' = c ∧ p ∈ w.patterns
    · rw [if_pos hw] at hsub
      obtain ⟨rfl, hpw⟩ := hw
      have hg := hok w ht p hpw
      rw [if_neg (by simp [hsub])] at hg
      rcases hg with hnone | hpend
      · have hs : (s.entry p).isSome := hp
        rw [hnone] at hs
        cases hs
      · exact hkeep (by simp [hsub]) hpend
    · rw [if_neg hw] at hsub
      exact hkeep (fun hh => hw hh.2) (h.missing p hp c' hc' hcon hsub)
  · intro p hp c' hc' hsub
    have hkeep : ¬ (w.subscribe = false ∧ c' = c ∧ p ∈ w.patterns) →
        s.PendingUnsubscribe cfg c' p →
        ∃ i, (Function.update s.threads t w.next i).OwesUnsubscribe cfg c' p := fun hno hh =>
      exists_update (P := fun y => SubThread.OwesUnsubscribe cfg y c' p) hh
        fun ho => (ho.next ht).resolve_right hno
    change (if c' = c ∧ p ∈ w.patterns then w.subscribe else s.subscribed c' p) = true at hsub
    by_cases hw : c' = c ∧ p ∈ w.patterns
    · rw [if_pos hw] at hsub
      obtain ⟨rfl, hpw⟩ := hw
      have hg := hok w ht p hpw
      rw [if_pos hsub] at hg
      rcases hg with hsome | hpend
      · have hs : s.entry p = none := hp
        rw [hs] at hsome
        cases hsome
      · exact hkeep (by simp [hsub]) hpend
    · rw [if_neg hw] at hsub
      exact hkeep (fun hh => hw hh.2) (h.stray p hp c' hc' hsub)

theorem tracked_retain {cfg : SubscriptionConfig} {s : SubscriptionState} {t : Nat}
    {ids : List ListenerId} {p : ChannelName} {todo normal keyspace : List ChannelName}
    {ls : List PatternListener} (h : s.Tracked cfg)
    (ht : s.threads t = .removing ids (p :: todo) normal keyspace) (he : s.entry p = some ls) :
    ({ s with maps := s.maps.retain p.patternMap p ids }.setThread t
      (if (retained ids ls).isEmpty then .emptied ids p todo normal keyspace
        else .removing ids todo normal keyspace)).Tracked cfg := by
  refine h.of_put (p := p) (o := (s.entry p).map (retained ids)) rfl rfl rfl rfl ?_ ?_ ?_
    (fun hnil => ?_) (fun _ c hc hcon hsub => ?_) fun hnone => ?_
  · rw [ht]; intros; contradiction
  · rw [ht]; intros; contradiction
  · rw [ht]
    intro c q hh
    split <;> exact hh
  · rw [he] at hnil
    have hnil' : retained ids ls = [] := by simpa using hnil
    simp [hnil', SubThread.Emptying]
  · exact .inr (h.missing p (by simp [he]) c hc hcon hsub)
  · rw [he] at hnone
    cases hnone

theorem tracked_erase {cfg : SubscriptionConfig} {s : SubscriptionState} {t : Nat}
    {ids : List ListenerId} {p : ChannelName} {todo normal keyspace : List ChannelName}
    (h : s.Tracked cfg) (ht : s.threads t = .emptied ids p todo normal keyspace) :
    ({ s with maps := s.maps.remove p.patternMap p }.setThread t
      (if p.perNode cfg.mode then .removing ids todo normal (keyspace ++ [p])
        else .removing ids todo (normal ++ [p]) keyspace)).Tracked cfg := by
  refine h.of_put (p := p) (o := none) rfl rfl rfl rfl ?_ ?_ ?_ nofun nofun
    fun _ c hc hsub => ?_
  · rw [ht]
    intro q hqp hq
    exact absurd hq hqp
  · rw [ht]; intros; contradiction
  · rw [ht]
    rintro c q (⟨hc, hq⟩ | ⟨hc, hq⟩)
    · split
      · exact .inl ⟨hc, hq⟩
      · exact .inl ⟨hc, List.mem_append_left _ hq⟩
    · split
      · exact .inr ⟨hc, List.mem_append_left _ hq⟩
      · exact .inr ⟨hc, hq⟩
  · -- the eraser owes every carrier of its pattern a PUNSUBSCRIBE
    unfold SubscriptionConfig.carriers at hc
    by_cases hn : p.perNode cfg.mode = true
    · rw [if_pos hn] at hc
      simpa [hn, SubThread.OwesUnsubscribe] using .inr (List.mem_map.mp hc)
    · rw [if_neg hn, List.mem_singleton] at hc
      simp [hn, hc, SubThread.OwesUnsubscribe]

theorem tracked_disconnect {cfg : SubscriptionConfig} {s : SubscriptionState} {n : Server}
    (h : s.Tracked cfg) :
    ({ s with
      connected := Function.update s.connected (.clusterNode n) false
      subscribed := fun c q => c ≠ .clusterNode n && s.subscribed c q } :
        SubscriptionState).Tracked cfg := by
  constructor
  · exact h.empty
  · intro p hp c hc hcon hsub
    have hcn : c ≠ .clusterNode n := by
      rintro rfl
      simp at hcon
    exact h.missing p hp c hc (by simpa [hcn] using hcon) (by simpa [hcn] using hsub)
  · intro p hp c hc hsub
    exact h.stray p hp c hc (by simpa using (Bool.and_eq_true _ _ ▸ hsub).2)

theorem tracked_reconnect {cfg : SubscriptionConfig} {s : SubscriptionState} {t : Nat}
    {n : Server} (h : s.Tracked cfg) (ht : s.threads t = .idle) :
    ({ s.setThread t (.scanning n [] []) with
      connected := Function.update s.connected (.clusterNode n) true } :
        SubscriptionState).Tracked cfg := by
  constructor
  · intro p hp
    exact exists_update_of_not (P := fun y => SubThread.Emptying y p) (h.empty p hp)
      (by rw [ht]; exact id)
  · intro p hp c hc hcon hsub
    by_cases hcn : c = .clusterNode n
    · exact ⟨t, by simp [setThread, SubThread.OwesSubscribe, hcn]⟩
    · exact exists_update_of_not (P := fun y => SubThread.OwesSubscribe cfg y c p)
        (h.missing p hp c hc (by simpa [hcn] using hcon) hsub)
        (by rw [ht]; exact id)
  · intro p hp c hc hsub
    exact exists_update_of_not (P := fun y => SubThread.OwesUnsubscribe cfg y c p)
      (h.stray p hp c hc hsub) (by rw [ht]; exact id)

/-- An entry that is there when the iterator passes is collected. -/
theorem tracked_scan {cfg : SubscriptionConfig} {s : SubscriptionState} {t : Nat} {p : ChannelName}
    {n : Server} {seen patterns : List ChannelName} (h : s.Tracked cfg)
    (ht : s.threads t = .scanning n seen patterns) :
    (s.setThread t (.scanning n (p :: seen)
      (if (s.maps.lookup .keyspacePatternListeners p).isSome then patterns ++ [p]
        else patterns))).Tracked cfg := by
  refine h.of_thread rfl rfl rfl rfl ?_ ?_ ?_
  · rw [ht]; intros; contradiction
  · rw [ht]
    rintro c q hq hc ⟨rfl, hh⟩
    refine ⟨rfl, ?_⟩
    by_cases hqp : q = p
    · subst hqp
      have hl : (s.maps.lookup .keyspacePatternListeners q).isSome := by
        rw [← perNode_of_carriers hc]
        exact hq
      exact .inr (by simp [hl])
    · rcases hh with hh | hh
      · exact .inl (by simp [hqp, hh])
      · refine .inr ?_
        split
        · exact List.mem_append_left _ hh
        · exact hh
  · rw [ht]; intros; contradiction

theorem tracked_endScan {cfg : SubscriptionConfig} {s : SubscriptionState} {t : Nat} {n : Server}
    {seen patterns : List ChannelName} (h : s.Tracked cfg)
    (ht : s.threads t = .scanning n seen patterns)
    (hk : s.maps.keyspacePatternListeners.keys ⊆ seen) :
    (s.setThread t (if patterns.isEmpty then .done else .resubscribing n patterns)).Tracked cfg := by
  refine h.of_thread rfl rfl rfl rfl ?_ ?_ ?_
  · rw [ht]; intros; contradiction
  · rw [ht]
    rintro c q hq hc ⟨rfl, hh⟩
    have hl : (s.maps.lookup .keyspacePatternListeners q).isSome := by
      rw [← perNode_of_carriers hc]
      exact hq
    have hseen : q ∈ seen := hk (AList.lookup_isSome.mp hl)
    have hpat : q ∈ patterns := hh.resolve_left fun hno => hno hseen
    have hne : patterns.isEmpty = false := by simpa using List.ne_nil_of_mem hpat
    rw [hne]
    exact ⟨rfl, hpat⟩
  · rw [ht]; intros; contradiction

theorem tracked_step {cfg : SubscriptionConfig} {s s' : SubscriptionState} {e : SubEvent}
    (h : s.failed = false → s.Tracked cfg) (hok : Orderly cfg s e) (hstep : SubStep cfg s e s')
    (hf : s'.failed = false) : s'.Tracked cfg := by
  cases hstep with
  | check ht =>
    refine (h hf).of_thread rfl rfl rfl rfl ?_ ?_ ?_ <;> (rw [ht]; intros; contradiction)
  | extend ht => exact tracked_extend (h hf) hok ht
  | send ht =>
    refine (h hf).of_thread rfl rfl rfl rfl ?_ ?_ ?_
    · rw [ht]; intros; contradiction
    · rw [ht]
      rintro c q - - ⟨rfl, hc⟩
      exact ⟨rfl, hc⟩
    · rw [ht]; intros; contradiction
  | subscribeWithoutEntries ht hp => cases hf
  | removeWithoutEntries ht => cases hf
  | deliver ht hc => exact tracked_deliver (h hf) hok ht
  | fail ht => cases hf
  | finish ht =>
    refine (h hf).of_thread rfl rfl rfl rfl ?_ ?_ ?_
    · rw [ht]; intros; contradiction
    · rw [ht]
      rintro c q - - ⟨-, hc⟩
      cases hc
    · rw [ht]; intros; contradiction
  | finishFailed ht => cases hf
  | finishRemove ht =>
    refine (h hf).of_thread rfl rfl rfl rfl ?_ ?_ ?_
    · rw [ht]; intros; contradiction
    · rw [ht]; intros; contradiction
    · rw [ht]
      rintro c q ⟨hc, -⟩
      cases hc
  | beginRemove ht =>
    refine (h hf).of_thread rfl rfl rfl rfl ?_ ?_ ?_ <;> (rw [ht]; intros; contradiction)
  | retainAbsent ht he =>
    refine (h hf).of_thread rfl rfl rfl rfl ?_ ?_ ?_
    · rw [ht]; intros; contradiction
    · rw [ht]; intros; contradiction
    · rw [ht]
      exact fun c q hh => hh
  | retain ht he => exact tracked_retain (h hf) ht he
  | erase ht => exact tracked_erase (h hf) ht
  | @fetchEntries t ids keyspace ht =>
    refine (h hf).of_thread rfl rfl rfl rfl ?_ ?_ ?_
    · rw [ht]; intros; contradiction
    · rw [ht]; intros; contradiction
    · rw [ht]
      rintro c q (⟨-, hq⟩ | ⟨hc, hq⟩)
      · cases hq
      · have hne : keyspace.isEmpty = false := by simpa using List.ne_nil_of_mem hq
        rw [hne]
        exact ⟨hc, hq⟩
  | disconnect hm => exact tracked_disconnect (h hf)
  | reconnect ht hm hc => exact tracked_reconnect (h hf) ht
  | scan ht hp => exact tracked_scan (h hf) ht
  | endScan ht hk => exact tracked_endScan (h hf) ht hk

/-! Whole runs. -/

theorem held_new : new.Held := by
  rintro p l (h | ⟨t, h⟩)
  · cases h
  · cases h

theorem tracked_new (cfg : SubscriptionConfig) : new.Tracked cfg := by
  have hentry : ∀ p, new.entry p = none := by
    intro p
    unfold entry ChannelName.patternMap
    split <;> rfl
  constructor
  · intro p hp
    rw [hentry] at hp
    cases hp
  · intro p hp
    rw [hentry] at hp
    cases hp
  · intro p hp c hc hsub
    cases hsub

theorem agrees_of_tracked {cfg : SubscriptionConfig} {s : SubscriptionState} (hheld : s.Held)
    (htracked : s.failed = false → s.Tracked cfg) (hq : s.Quiescent) : s.Agrees cfg := by
  constructor
  · intro p l hl
    exact hheld p l (.inl hl)
  · intro hf p c hc hcon
    have ht := htracked hf
    constructor
    · intro hsub hnil
      cases he : s.entry p with
      | none =>
        obtain ⟨t, hh⟩ := ht.stray p he c hc hsub
        have hrest := hq t
        cases hx : s.threads t <;> simp_all [SubThread.Resting, SubThread.OwesUnsubscribe]
      | some ls =>
        have hls : ls = [] := by simpa [listeners, he] using hnil
        obtain ⟨t, hh⟩ := ht.empty p (by rw [he, hls])
        have hrest := hq t
        cases hx : s.threads t <;> simp_all [SubThread.Resting, SubThread.Emptying]
    · intro hne
      by_contra hsub
      have hs : (s.entry p).isSome := by
        cases he : s.entry p with
        | none => simp [listeners, he] at hne
        | some ls => rfl
      obtain ⟨t, hh⟩ := ht.missing p hs c hc hcon (by simpa using hsub)
      have hrest := hq t
      cases hx : s.threads t <;> simp_all [SubThread.Resting, SubThread.OwesSubscribe]

/-- In every run of orderly steps the maps and Redis agree whenever no call is in flight. -/
theorem agrees_of_orderly {cfg : SubscriptionConfig} {s : SubscriptionState} {es : List SubEvent}
    (h : GuardedRun (subStep cfg) (Orderly cfg) new es s) (hq : s.Quiescent) : s.Agrees cfg := by
  have hkeep : ∀ (s : SubscriptionState) (e : SubEvent) (m : SubscriptionState),
      s.Held ∧ (s.failed = false → s.Tracked cfg) → Orderly cfg s e →
        subStep cfg s e = some m → m.Held ∧ (m.failed = false → m.Tracked cfg) := by
    intro s e m hs hok hstep
    have hrel := SubStep.of_step hstep
    exact ⟨held_step hs.1 hok hrel, tracked_step hs.2 hok hrel⟩
  have hinv := GuardedRun.invariant hkeep ⟨held_new, fun _ => tracked_new cfg⟩ h
  exact agrees_of_tracked hinv.1 hinv.2 hq

/-! One pattern of a standalone server, a listener, and its removal. -/

def standalone : SubscriptionConfig := ⟨.standalone, []⟩

def firstListener : PatternListener := ⟨1, "news.*"⟩

def secondListener : PatternListener := ⟨2, "news.*"⟩

def subscribeFirst : List SubEvent :=
  [.check 0 newsPattern [firstListener], .extend 0, .send 0, .deliver 0 .subscriber, .finish 0]

def serialRun : List SubEvent :=
  subscribeFirst ++ [.beginRemove 1 [newsPattern] [1], .retain 1, .erase 1,
    .deliver 1 .subscriber, .fetchEntries 1]

end SubscriptionState

end Redisson
