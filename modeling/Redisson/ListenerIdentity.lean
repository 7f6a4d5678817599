import Redisson.RegistryAgreement

/-! Whom a listener id denotes. `add_listener` of a pattern topic returns the address of the
`Arc` that it registers, `remove_listener` takes out whatever sits at the address. -/

namespace Redisson

open LabelledRuns

namespace SubThread

/-- The ids that a `remove_listener` was called with. -/
def named : SubThread → Option (List ListenerId)
  | removing ids _ _ _ | emptied ids _ _ _ _ => some ids
  | _ => none

def Checked : SubThread → Prop
  | checked .. => True
  | _ => False

end SubThread

/-- The service, and which call each address comes from: the listeners are numbered in the order
of their `add_listener`. `adding` is the listener of such a call, `naming` are the listeners
whose ids a `remove_listener` was given, `present` those that make up the entry of a pattern, and
`returned` those whose id was returned. -/
structure TopicState where
  sub : SubscriptionState
  next : Nat
  adding : Nat → Option Nat
  naming : Nat → List Nat
  present : ChannelName → List Nat
  returned : List Nat

inductive TopicEvent
  | addListener (t : Nat) (p : ChannelName)
  | removeListener (t : Nat) (p : ChannelName) (ids : List Nat)
  | go (e : SubEvent)

def SubEvent.begins : SubEvent → Bool
  | .check .. | .beginRemove .. => true
  | _ => false

namespace TopicState

def new : TopicState := ⟨.new, 0, fun _ => none, fun _ => [], fun _ => [], []⟩

section Steps

variable (cfg : SubscriptionConfig) (address : Nat → ListenerId) (s : TopicState)

def presentAfter : SubEvent → ChannelName → List Nat
  | .extend t =>
    match s.sub.threads t with
    | .checked p _ _ => Function.update s.present p (s.present p ++ (s.adding t).toList)
    | _ => s.present
  | .finish t =>
    match s.sub.threads t with
    | .subscribing p _ [] true => Function.update s.present p []
    | _ => s.present
  | .retain t =>
    match s.sub.threads t with
    | .removing ids (p :: _) _ _ =>
      Function.update s.present p ((s.present p).filter fun k => address k ∉ ids)
    | _ => s.present
  | .erase t =>
    match s.sub.threads t with
    | .emptied _ p _ _ _ => Function.update s.present p []
    | _ => s.present
  | _ => s.present

def returnedAfter : SubEvent → List Nat
  | .finish t =>
    match s.sub.threads t with
    | .subscribing _ _ [] false => s.returned ++ (s.adding t).toList
    | _ => s.returned
  | _ => s.returned

/-- The `k`-th listener is put at `address k`. An id that is named was returned before. -/
def topicStep : TopicEvent → Option TopicState
  | .addListener t p =>
    (subStep cfg s.sub (.check t p [⟨address s.next, p.str⟩])).map fun sub =>
      { s with sub, next := s.next + 1, adding := Function.update s.adding t (some s.next) }
  | .removeListener t p ids =>
    if ids ⊆ s.returned then
      (subStep cfg s.sub (.beginRemove t [p] (ids.map address))).map fun sub =>
        { s with sub, naming := Function.update s.naming t ids }
    else none
  | .go e =>
    if e.begins then none
    else
      (subStep cfg s.sub e).map fun sub =>
        { s with sub, present := s.presentAfter address e, returned := s.returnedAfter e }

/-- A listener is in the entry of a pattern, or about to be put there. -/
def Live (a : ListenerId) : Prop :=
  (∃ p, ∃ l ∈ s.sub.listeners p, l.id = a) ∨
    ∃ t p ls already, s.sub.threads t = .checked p ls already ∧ ∃ l ∈ ls, l.id = a

/-- The allocator gives out no address of a live listener. -/
def Allocates : TopicEvent → Prop
  | .addListener .. => ¬ s.Live (address s.next)
  | _ => True

/-- What a `remove_listener` takes out of an entry are listeners that it names. -/
def SparesOthers (e : TopicEvent) : Prop :=
  match e with
  | .go (.retain t) | .go (.erase t) => ∀ s', topicStep cfg address s e = some s' →
      ∀ p, ∀ k ∈ s.present p, k ∉ s'.present p → k ∈ s.naming t
  | _ => True

/-- No address of a named listener belongs meanwhile to a later one of the same pattern that is
not named, and an entry that was left without listeners is removed before it gets another. -/
def IdsCurrent : TopicEvent → Prop
  | .go (.retain t) => ∀ ids p todo normal keyspace,
      s.sub.threads t = .removing ids (p :: todo) normal keyspace →
      ∀ k ∈ s.naming t, ∀ j ∈ s.present p, k < j → address j = address k → j ∈ s.naming t
  | .go (.erase t) => ∀ ids p todo normal keyspace,
      s.sub.threads t = .emptied ids p todo normal keyspace → s.sub.listeners p = []
  | _ => True

end Steps

end TopicState

section Effects

variable {cfg : SubscriptionConfig} {s s' : SubscriptionState} {e : SubEvent} {p q : ChannelName}

theorem SubThread.call_named {x : SubThread} {c : PubSubConnection} {w : WireCall}
    (h : x.call c = some w) :
    (¬ w.next.Checked ∧ ∀ ids, w.next.named = some ids → x.named = some ids) ∧
      ¬ w.onError.Checked ∧ ∀ ids, w.onError.named = some ids → x.named = some ids := by
  rcases call_cases h with ⟨p, ls, todo, failed, rfl, -, rfl⟩ | ⟨ids, normal, keyspace, rfl, -, rfl⟩ |
    ⟨keyspace, nodes, n, rfl, -, rfl⟩ | ⟨n, patterns, rfl, -, rfl⟩ <;> simp [Checked, named]

/-- A step moves one thread at most. It is not checked then, unless it has just begun, and it goes
on removing the ids that it was called with. -/
theorem SubStep.threads_cases (h : SubStep cfg s e s') (hb : e.begins = false) :
    s'.threads = s.threads ∨ ∃ t x, s'.threads = Function.update s.threads t x ∧ ¬ x.Checked ∧
      ∀ ids, x.named = some ids → (s.threads t).named = some ids := by
  cases h with
  | check | beginRemove => cases hb
  | disconnect => exact .inl rfl
  | deliver ht hc => exact .inr ⟨_, _, rfl, (SubThread.call_named ht).1⟩
  | fail ht => exact .inr ⟨_, _, rfl, (SubThread.call_named ht).2⟩
  | @extend t p ls already ht =>
    refine .inr ⟨t, _, rfl, ?_⟩
    cases already <;> simp [SubThread.Checked, SubThread.named]
  | @retain t ids p todo normal keyspace ls ht he =>
    refine .inr ⟨t, _, rfl, ?_⟩
    split <;> simp [SubThread.Checked, SubThread.named, ht]
  | @erase t ids p todo normal keyspace ht =>
    refine .inr ⟨t, _, rfl, ?_⟩
    split <;> simp [SubThread.Checked, SubThread.named, ht]
  | @fetchEntries t ids keyspace ht =>
    refine .inr ⟨t, _, rfl, ?_⟩
    split <;> simp [SubThread.Checked, SubThread.named]
  | @endScan t n seen patterns ht hk =>
    refine .inr ⟨t, _, rfl, ?_⟩
    split <;> simp [SubThread.Checked, SubThread.named]
  | retainAbsent ht he => exact .inr ⟨_, _, rfl, id, fun ids hi => by rw [ht]; exact hi⟩
  | _ => exact .inr ⟨_, _, rfl, id, nofun⟩

theorem listeners_put {o : Option (List PatternListener)} (h : s'.maps = s.maps.put p.patternMap p o)
    (q : ChannelName) : s'.listeners q = if q = p then o.getD [] else s.listeners q := by
  unfold SubscriptionState.listeners
  rw [SubscriptionState.entry_put h]
  split <;> rfl

theorem getD_map_retained (ids : List ListenerId) (o : Option (List PatternListener)) :
    (o.map (retained ids)).getD [] = retained ids (o.getD []) := by
  cases o <;> rfl

end Effects

namespace TopicState

variable {cfg : SubscriptionConfig} {address : Nat → ListenerId} {s s' : TopicState}
  {sub : SubscriptionState} {e : SubEvent}

/-- No later listener has got the address so far. -/
def Latest (address : Nat → ListenerId) (s : TopicState) (k : Nat) : Prop :=
  k < s.next ∧ ∀ j, k < j → j < s.next → address j ≠ address k

structure Numbered (address : Nat → ListenerId) (s : TopicState) : Prop where
  listed : ∀ p, (s.present p).map address = (s.sub.listeners p).map PatternListener.id
  latest : ∀ p, ∀ k ∈ s.present p, Latest address s k
  checked : ∀ t p ls already, s.sub.threads t = .checked p ls already →
    ∃ k, s.adding t = some k ∧ ls.map PatternListener.id = [address k] ∧ Latest address s k
  ids : ∀ t ids, (s.sub.threads t).named = some ids → ids = (s.naming t).map address
  adding_lt : ∀ t k, s.adding t = some k → k < s.next
  returned_lt : ∀ k ∈ s.returned, k < s.next
  naming_lt : ∀ t, ∀ k ∈ s.naming t, k < s.next

theorem numbered_new : Numbered address new where
  listed p := by
    cases hp : p.patternMap <;>
      simp [new, SubscriptionState.listeners, SubscriptionState.entry, SubscriptionState.new,
        ListenerMaps.empty, ListenerMaps.lookup, ListenerMaps.get, hp]
  latest p k hk := nomatch hk
  checked t p ls already ht := nomatch ht
  ids t ids hi := nomatch hi
  adding_lt t k hk := nomatch hk
  returned_lt k hk := nomatch hk
  naming_lt t k hk := nomatch hk

theorem map_retained {ks : List Nat} {ls : List PatternListener} (ids : List ListenerId)
    (h : ks.map address = ls.map PatternListener.id) :
    (ks.filter fun k => address k ∉ ids).map address = (retained ids ls).map PatternListener.id := by
  have hfiltered := congrArg (List.filter fun a => a ∉ ids) h
  simpa [List.filter_map, Function.comp_def, retained] using hfiltered

theorem listed_put {p : ChannelName} {ks : List Nat} {o : Option (List PatternListener)}
    (h : Numbered address s) (hmaps : sub.maps = s.sub.maps.put p.patternMap p o)
    (hks : ks.map address = (o.getD []).map PatternListener.id) (q : ChannelName) :
    (Function.update s.present p ks q).map address = (sub.listeners q).map PatternListener.id := by
  rw [listeners_put hmaps, Function.update_apply]
  split
  · exact hks
  · exact h.listed q

theorem listed_go (h : Numbered address s) (hs : SubStep cfg s.sub e sub) (q : ChannelName) :
    (s.presentAfter address e q).map address = (sub.listeners q).map PatternListener.id := by
  cases hs with
  | @extend t p ls already ht =>
    obtain ⟨k, hk, hid, -⟩ := h.checked t p ls already ht
    have hadded : (s.present p ++ [k]).map address =
        (s.sub.listeners p ++ ls).map PatternListener.id := by
      simp [h.listed p, hid]
    simp only [presentAfter, ht, hk]
    exact listed_put (o := some (s.sub.listeners p ++ ls)) h rfl hadded q
  | @finishFailed t p ls ht =>
    simp only [presentAfter, ht]
    exact listed_put h rfl (by cases s.sub.maps.lookup p.patternMap p <;> rfl) q
  | @retain t ids p todo normal keyspace ls ht he =>
    have hkept := map_retained ids (h.listed p)
    simp only [presentAfter, ht]
    exact listed_put h rfl (hkept.trans (by rw [getD_map_retained]; rfl)) q
  | @retainAbsent t ids p todo normal keyspace ht he =>
    -- no entry, and nothing to filter
    have hempty : s.sub.listeners p = [] := by simp [SubscriptionState.listeners, he]
    have hkept := map_retained ids (h.listed p)
    simp only [presentAfter, ht, Function.update_apply]
    split
    · next hq =>
      subst hq
      rw [hkept, hempty]
      exact (congrArg _ hempty).symm
    · exact h.listed q
  | @erase t ids p todo normal keyspace ht =>
    simp only [presentAfter, ht]
    exact listed_put (o := none) h rfl rfl q
  | _ =>
    refine Eq.trans (congrArg (List.map address) ?_) (h.listed q)
    simp only [presentAfter, *]

theorem presentAfter_cases (e : SubEvent) : s.presentAfter address e = s.present ∨
    ∃ p ks, s.presentAfter address e = Function.update s.present p ks ∧
      ∀ k ∈ ks, k ∈ s.present p ∨
        ∃ t ls already, s.sub.threads t = .checked p ls already ∧ s.adding t = some k := by
  cases e with
  | extend t =>
    simp only [presentAfter]
    split
    · next p ls already ht =>
      refine .inr ⟨p, _, rfl, fun k hk => ?_⟩
      rcases List.mem_append.mp hk with hk | hk
      · exact .inl hk
      · exact .inr ⟨t, ls, already, ht, Option.mem_toList.mp hk⟩
    · exact .inl rfl
  | finish t | erase t =>
    simp only [presentAfter]
    split
    · exact .inr ⟨_, _, rfl, nofun⟩
    · exact .inl rfl
  | retain t =>
    simp only [presentAfter]
    split
    · exact .inr ⟨_, _, rfl, fun k hk => .inl (List.mem_filter.mp hk).1⟩
    · exact .inl rfl
  | _ => exact .inl rfl

theorem mem_presentAfter {p : ChannelName} {k : Nat} (h : k ∈ s.presentAfter address e p) :
    k ∈ s.present p ∨ ∃ t ls already, s.sub.threads t = .checked p ls already ∧
      s.adding t = some k := by
  rcases @presentAfter_cases address s e with hp | ⟨p', ks, hp, hks⟩
  · exact .inl (hp ▸ h)
  · rw [hp, Function.update_apply] at h
    split at h
    · next hpp => exact hpp ▸ hks k h
    · exact .inl h

theorem mem_returnedAfter {k : Nat} (h : k ∈ s.returnedAfter e) :
    k ∈ s.returned ∨ ∃ t, s.adding t = some k := by
  cases e with
  | finish t =>
    simp only [returnedAfter] at h
    split at h
    · exact (List.mem_append.mp h).imp id fun hk => ⟨t, Option.mem_toList.mp hk⟩
    · exact .inl h
  | _ => exact .inl h

theorem numbered_go (h : Numbered address s) (hs : SubStep cfg s.sub e sub)
    (hb : e.begins = false) : Numbered address
      { s with sub, present := s.presentAfter address e, returned := s.returnedAfter e } where
  listed := listed_go h hs
  latest p k hk := by
    rcases mem_presentAfter hk with hk | ⟨t, ls, already, ht, hk⟩
    · exact h.latest p k hk
    · obtain ⟨j, hj, -, hlatest⟩ := h.checked t p ls already ht
      obtain rfl : j = k := Option.some.inj (hj.symm.trans hk)
      exact hlatest
  checked t p ls already ht := by
    have ht : sub.threads t = .checked p ls already := ht
    rcases hs.threads_cases hb with hthreads | ⟨i, x, hthreads, hx, -⟩
    · exact h.checked t p ls already (hthreads ▸ ht)
    · rw [hthreads, Function.update_apply] at ht
      split at ht
      · rw [ht] at hx
        exact absurd trivial hx
      · exact h.checked t p ls already ht
  ids t ids hi := by
    have hi : (sub.threads t).named = some ids := hi
    rcases hs.threads_cases hb with hthreads | ⟨i, x, hthreads, -, hx⟩
    · exact h.ids t ids (hthreads ▸ hi)
    · rw [hthreads, Function.update_apply] at hi
      split at hi
      · next hti => exact h.ids t ids (hti ▸ hx ids hi)
      · exact h.ids t ids hi
  adding_lt := h.adding_lt
  returned_lt k hk := by
    rcases mem_returnedAfter hk with hk | ⟨t, hk⟩
    · exact h.returned_lt k hk
    · exact h.adding_lt t k hk
  naming_lt := h.naming_lt

theorem live_present (h : Numbered address s) {p : ChannelName} {k : Nat} (hk : k ∈ s.present p) :
    s.Live (address k) := by
  have hlisted : address k ∈ (s.sub.listeners p).map PatternListener.id :=
    h.listed p ▸ List.mem_map_of_mem hk
  exact .inl ⟨p, List.mem_map.mp hlisted⟩

theorem live_checked {t k : Nat} {p : ChannelName} {ls : List PatternListener} {already : Bool}
    (ht : s.sub.threads t = .checked p ls already)
    (hid : ls.map PatternListener.id = [address k]) : s.Live (address k) := by
  have hlisted : address k ∈ ls.map PatternListener.id := by simp [hid]
  exact .inr ⟨t, p, ls, already, ht, List.mem_map.mp hlisted⟩

theorem Latest.allocate {k : Nat} (h : Latest address s k) (hk : s.Live (address k))
    (hnext : ¬ s.Live (address s.next)) (hs : s'.next = s.next + 1) : Latest address s' k := by
  obtain ⟨hlt, hlater⟩ := h
  refine ⟨by omega, fun j hj hjn heq => ?_⟩
  rcases Nat.lt_succ_iff_lt_or_eq.mp (hs ▸ hjn : j < s.next + 1) with hjn | rfl
  · exact hlater j hj hjn heq
  · exact hnext (heq ▸ hk)

theorem numbered_addListener {t : Nat} {p : ChannelName} (h : Numbered address s)
    (hnext : ¬ s.Live (address s.next))
    (hs : topicStep cfg address s (.addListener t p) = some s') : Numbered address s' := by
  obtain ⟨sub, hsub, rfl⟩ := Option.map_eq_some_iff.mp hs
  cases SubStep.of_step hsub with
  | check ht =>
    constructor
    case listed => exact h.listed
    case latest => exact fun q k hk => (h.latest q k hk).allocate (live_present h hk) hnext rfl
    case checked =>
      intro t' q ls already ht'
      by_cases htt : t' = t
      · subst htt
        obtain ⟨rfl, rfl, -⟩ : p = q ∧ [⟨address s.next, p.str⟩] = ls ∧ _ = already := by
          simpa [SubscriptionState.setThread] using ht'
        refine ⟨s.next, by simp, rfl, Nat.lt_succ_self _, fun j hj hjn => ?_⟩
        have hjn : j < s.next + 1 := hjn
        omega
      · have ht' : s.sub.threads t' = .checked q ls already := by
          simpa [SubscriptionState.setThread, htt] using ht'
        obtain ⟨k, hk, hid, hk'⟩ := h.checked t' q ls already ht'
        exact ⟨k, by simpa [htt] using hk, hid, hk'.allocate (live_checked ht' hid) hnext rfl⟩
    case ids =>
      exact (Function.forall_update_iff _ fun t' x => ∀ ids, SubThread.named x = some ids →
        ids = (s.naming t').map address).mpr ⟨by rintro ids ⟨⟩, fun t' _ => h.ids t'⟩
    case adding_lt =>
      refine (Function.forall_update_iff _ fun _ x => ∀ k, x = some k → k < s.next + 1).mpr
        ⟨fun k hk => ?_, fun t' _ k hk => Nat.lt_succ_of_lt (h.adding_lt t' k hk)⟩
      exact Option.some.inj hk ▸ Nat.lt_succ_self _
    case returned_lt => exact fun k hk => Nat.lt_succ_of_lt (h.returned_lt k hk)
    case naming_lt => exact fun t' k hk => Nat.lt_succ_of_lt (h.naming_lt t' k hk)

theorem topicStep_removeListener {t : Nat} {p : ChannelName} {ids : List Nat}
    (hs : topicStep cfg address s (.removeListener t p ids) = some s') :
    ids ⊆ s.returned ∧ ∃ sub, SubStep cfg s.sub (.beginRemove t [p] (ids.map address)) sub ∧
      s' = { s with sub, naming := Function.update s.naming t ids } := by
  simp only [topicStep] at hs
  split at hs
  · next hids =>
    obtain ⟨sub, hsub, rfl⟩ := Option.map_eq_some_iff.mp hs
    exact ⟨hids, sub, SubStep.of_step hsub, rfl⟩
  · cases hs

theorem numbered_removeListener {t : Nat} {p : ChannelName} {ids : List Nat}
    (h : Numbered address s)
    (hs : topicStep cfg address s (.removeListener t p ids) = some s') : Numbered address s' := by
  obtain ⟨hids, sub, hsub, rfl⟩ := topicStep_removeListener hs
  cases hsub with
  | beginRemove ht =>
    constructor
    case listed => exact h.listed
    case latest => exact h.latest
    case checked =>
      exact (Function.forall_update_iff _ fun t' x => ∀ q ls already, x = SubThread.checked q ls already →
        ∃ k, s.adding t' = some k ∧ ls.map PatternListener.id = [address k] ∧
          Latest address s k).mpr ⟨by rintro q ls already ⟨⟩, fun t' _ => h.checked t'⟩
    case ids =>
      intro t' ids' hi
      by_cases htt : t' = t
      · subst htt
        simpa [SubscriptionState.setThread, SubThread.named, eq_comm] using hi
      · simpa [htt] using h.ids t' ids' (by simpa [SubscriptionState.setThread, htt] using hi)
    case adding_lt => exact h.adding_lt
    case returned_lt => exact h.returned_lt
    case naming_lt =>
      exact (Function.forall_update_iff _ fun _ ks => ∀ k ∈ ks, k < s.next).mpr
        ⟨fun k hk => h.returned_lt k (hids hk), fun t' _ => h.naming_lt t'⟩

theorem topicStep_go (hs : topicStep cfg address s (.go e) = some s') :
    e.begins = false ∧ ∃ sub, SubStep cfg s.sub e sub ∧
      s' = { s with sub, present := s.presentAfter address e, returned := s.returnedAfter e } := by
  simp only [topicStep] at hs
  split at hs
  · cases hs
  · next hb =>
    obtain ⟨sub, hsub, rfl⟩ := Option.map_eq_some_iff.mp hs
    exact ⟨by simpa using hb, sub, SubStep.of_step hsub, rfl⟩

theorem numbered_step {e : TopicEvent} (h : Numbered address s) (hok : s.Allocates address e)
    (hs : topicStep cfg address s e = some s') : Numbered address s' := by
  cases e with
  | addListener t p => exact numbered_addListener h hok hs
  | removeListener t p ids => exact numbered_removeListener h hs
  | go e =>
    obtain ⟨hb, sub, hsub, rfl⟩ := topicStep_go hs
    exact numbered_go h hsub hb

theorem named_of_current {t k : Nat} {ids : List ListenerId} {p : ChannelName}
    (h : Numbered address s) (hids : (s.sub.threads t).named = some ids)
    (hcurrent : ∀ i ∈ s.naming t, ∀ j ∈ s.present p, i < j → address j = address i → j ∈ s.naming t)
    (hk : k ∈ s.present p) (hki : address k ∈ ids) : k ∈ s.naming t := by
  rw [h.ids t ids hids] at hki
  obtain ⟨i, hi, heq⟩ := List.mem_map.mp hki
  rcases Nat.lt_trichotomy i k with hlt | rfl | hlt
  · exact hcurrent i hi k hk hlt heq.symm
  · exact hi
  · -- one that was there before was live when the named one was put at its address
    exact absurd heq ((h.latest p k hk).2 i hlt (h.naming_lt t i hi))

theorem sparesOthers_retain {t : Nat} (h : Numbered address s)
    (hcurrent : s.IdsCurrent address (.go (.retain t))) :
    s.SparesOthers cfg address (.go (.retain t)) := by
  intro s' hs p k hk hgone
  obtain ⟨-, sub, hsub, rfl⟩ := topicStep_go hs
  have key : ∀ ids q todo normal keyspace,
      s.sub.threads t = .removing ids (q :: todo) normal keyspace → k ∈ s.naming t := by
    intro ids q todo normal keyspace ht
    simp only [presentAfter, ht, Function.update_apply] at hgone
    split at hgone
    · next hpq =>
      subst hpq
      have hki : address k ∈ ids := by simpa [hk] using hgone
      exact named_of_current h (by rw [ht]; rfl) (hcurrent ids p todo normal keyspace ht) hk hki
    · exact absurd hk hgone
  cases hsub with
  | retain ht he | retainAbsent ht he => exact key _ _ _ _ _ ht

theorem sparesOthers_erase {t : Nat} (h : Numbered address s)
    (hcurrent : s.IdsCurrent address (.go (.erase t))) :
    s.SparesOthers cfg address (.go (.erase t)) := by
  intro s' hs p k hk hgone
  obtain ⟨-, sub, hsub, rfl⟩ := topicStep_go hs
  cases hsub with
  | @erase _ ids q todo normal keyspace ht =>
    -- the entry goes as a whole, so nobody may have come to it
    have hempty : s.present q = [] := by
      have hlisted := h.listed q
      rw [hcurrent ids q todo normal keyspace ht] at hlisted
      exact List.map_eq_nil_iff.mp hlisted
    simp only [presentAfter, ht, Function.update_apply] at hgone
    split at hgone
    · next hpq =>
      subst hpq
      rw [hempty] at hk
      cases hk
    · exact absurd hk hgone

theorem sparesOthers_of_current {e : TopicEvent} (h : Numbered address s)
    (hcurrent : s.IdsCurrent address e) : s.SparesOthers cfg address e := by
  cases e with
  | go e =>
    cases e with
    | retain t => exact sparesOthers_retain h hcurrent
    | erase t => exact sparesOthers_erase h hcurrent
    | _ => trivial
  | _ => trivial

/-- In a run in which the ids that are named are current, no `remove_listener` takes out a
listener whose id it was not given. -/
theorem sparesOthers_run {es : List TopicEvent}
    (h : GuardedRun (topicStep cfg address)
      (fun s e => s.Allocates address e ∧ s.IdsCurrent address e) new es s) :
    GuardedRun (topicStep cfg address) (SparesOthers cfg address) new es s :=
  h.of_invariant (fun _ _ _ hs hok hm => numbered_step hs hok.1 hm)
    (fun _ _ hs hok => sparesOthers_of_current hs hok.2) numbered_new

/-! A standalone server and an allocator that has only one address to give. -/

def news : ChannelName := ⟨"news.*"⟩

def addNews (t : Nat) : List TopicEvent :=
  [.addListener t news, .go (.extend t), .go (.send t), .go (.deliver t .subscriber), .go (.finish t)]

def removeNews (t k : Nat) : List TopicEvent :=
  [.removeListener t news [k], .go (.retain t), .go (.erase t), .go (.deliver t .subscriber),
    .go (.fetchEntries t)]

abbrev newsStep : TopicState → TopicEvent → Option TopicState :=
  topicStep SubscriptionState.standalone fun _ => 1

theorem not_live_of_empty {a : ListenerId} (hempty : ∀ p, s.sub.listeners p = [])
    (hthreads : ∀ t, ¬ (s.sub.threads t).Checked) : ¬ s.Live a := by
  rintro (⟨p, l, hl, -⟩ | ⟨t, p, ls, already, ht, -⟩)
  · rw [hempty] at hl
    cases hl
  · have hchecked := hthreads t
    rw [ht] at hchecked
    exact hchecked trivial

theorem listeners_of_empty (hmaps : s.sub.maps = .empty) (p : ChannelName) :
    s.sub.listeners p = [] := by
  cases hp : p.patternMap <;>
    simp [SubscriptionState.listeners, SubscriptionState.entry, hmaps, ListenerMaps.empty,
      ListenerMaps.lookup, ListenerMaps.get, hp]

def reused : TopicState :=
  (run newsStep new (addNews 0 ++ removeNews 1 0 ++ addNews 2)).getD new

/-- The second listener takes the place of the first. -/
theorem guardedRun_reused : GuardedRun newsStep
    (fun s e => s.Allocates (fun _ => 1) e ∧ s.IdsCurrent (fun _ => 1) e) new
    (addNews 0 ++ removeNews 1 0 ++ addNews 2) reused := by
  refine guardedRun_append.mpr ⟨(run newsStep new (addNews 0 ++ removeNews 1 0)).getD new, ?_, ?_⟩
  · refine ⟨⟨not_live_of_empty (listeners_of_empty rfl) fun _ => id, trivial⟩, _, rfl,
      ⟨trivial, trivial⟩, _, rfl, ⟨trivial, trivial⟩, _, rfl, ⟨trivial, trivial⟩, _, rfl,
      ⟨trivial, trivial⟩, _, rfl, ⟨trivial, trivial⟩, _, rfl, ⟨trivial, ?_⟩, _, rfl,
      ⟨trivial, ?_⟩, _, rfl, ⟨trivial, trivial⟩, _, rfl, ⟨trivial, trivial⟩, _, rfl, rfl⟩
    · intro ids p todo normal keyspace ht k hk j hj hlt
      have ht : SubThread.removing [1] [news] [] [] = .removing ids (p :: todo) normal keyspace := ht
      cases ht
      have hj : j ∈ [0] := hj
      simp at hj
      omega
    · intro ids p todo normal keyspace ht
      have ht : SubThread.emptied [1] news [] [] [] = .emptied ids p todo normal keyspace := ht
      cases ht
      rfl
  · refine ⟨⟨not_live_of_empty (listeners_of_empty rfl) fun t => ?_, trivial⟩, _, rfl,
      ⟨trivial, trivial⟩, _, rfl, ⟨trivial, trivial⟩, _, rfl, ⟨trivial, trivial⟩, _, rfl,
      ⟨trivial, trivial⟩, _, rfl, rfl⟩
    match t with
    | 0 => exact id
    | 1 => exact id
    | n + 2 => exact id

def removeAgain (k : Nat) : List TopicEvent :=
  addNews 0 ++ removeNews 1 0 ++ addNews 2 ++ [.removeListener 3 news [k], .go (.retain 3)]

theorem sparesOthers_current : ∃ s, GuardedRun newsStep
    (SparesOthers SubscriptionState.standalone fun _ => 1) new (removeAgain 1) s ∧
    s.present news = [] := by
  refine ⟨_, sparesOthers_run (guardedRun_append.mpr
    ⟨_, guardedRun_reused, ⟨trivial, trivial⟩, _, rfl, ⟨trivial, ?_⟩, _, rfl, rfl⟩), rfl⟩
  intro ids p todo normal keyspace ht k hk j hj hlt _
  have ht : SubThread.removing [1] [news] [] [] = .removing ids (p :: todo) normal keyspace := ht
  cases ht
  exact hj

def addMeanwhile : List TopicEvent :=
  addNews 0 ++ [.removeListener 1 news [0], .go (.retain 1), .addListener 2 news, .go (.extend 2),
    .go (.finish 2), .go (.erase 1)]

theorem allocates_removeAgain : ∃ s, GuardedRun newsStep (Allocates fun _ => 1) new (removeAgain 0) s ∧
    s.present news = [] :=
  ⟨_, guardedRun_append.mpr ⟨_, guardedRun_reused.mono fun _ _ => And.left,
    trivial, _, rfl, trivial, _, rfl, rfl⟩, rfl⟩

theorem allocates_addMeanwhile : ∃ s, GuardedRun newsStep (Allocates fun _ => 1) new addMeanwhile s ∧
    s.present news = [] := by
  refine ⟨_, ⟨not_live_of_empty (listeners_of_empty rfl) fun _ => id, _, rfl, trivial, _, rfl, trivial,
    _, rfl, trivial, _, rfl, trivial, _, rfl, trivial, _, rfl, trivial, _, rfl,
    not_live_of_empty (fun p => ?_) fun t => ?_, _, rfl, trivial, _, rfl, trivial, _, rfl, trivial,
    _, rfl, rfl⟩, rfl⟩
  · refine Eq.trans (listeners_put (s := SubscriptionState.new) (p := news) (o := some []) ?_ p) ?_
    · rfl
    · split
      · rfl
      · exact @listeners_of_empty new rfl p
  · match t with
    | 0 => exact id
    | 1 => exact id
    | n + 2 => exact id

theorem not_sparesOthers_removeAgain :
    ¬ GuardedRun newsStep (SparesOthers SubscriptionState.standalone fun _ => 1) new (removeAgain 0) s := by
  intro h
  have hlast : GuardedRun newsStep (SparesOthers SubscriptionState.standalone fun _ => 1) new
      (addNews 0 ++ removeNews 1 0 ++ addNews 2 ++ [.removeListener 3 news [0]] ++ [.go (.retain 3)]) s :=
    h
  obtain ⟨m, hm, hspares⟩ := hlast.last
  cases hm
  have hnamed : 1 ∈ [0] := hspares _ rfl news 1 (by decide) (by decide)
  simp at hnamed

theorem not_sparesOthers_addMeanwhile :
    ¬ GuardedRun newsStep (SparesOthers SubscriptionState.standalone fun _ => 1) new addMeanwhile s := by
  intro h
  have hlast : GuardedRun newsStep (SparesOthers SubscriptionState.standalone fun _ => 1) new
      (addNews 0 ++ [.removeListener 1 news [0], .go (.retain 1), .addListener 2 news,
        .go (.extend 2), .go (.finish 2)] ++ [.go (.erase 1)]) s := h
  obtain ⟨m, hm, hspares⟩ := hlast.last
  cases hm
  have hnamed : 1 ∈ [0] := hspares _ rfl news 1 (by decide) (by decide)
  simp at hnamed

/-- An id that was used before denotes the listener that has come to its address. And an id that
is current takes more than its listener along, if another one is added before the entry that it
has left empty is removed. -/
theorem id_denotes_another :
    (∃ s, GuardedRun newsStep (Allocates fun _ => 1) new (removeAgain 0) s ∧ s.present news = [] ∧
      ¬ GuardedRun newsStep (SparesOthers SubscriptionState.standalone fun _ => 1) new (removeAgain 0) s) ∧
    ∃ s, GuardedRun newsStep (Allocates fun _ => 1) new addMeanwhile s ∧ s.present news = [] ∧
      ¬ GuardedRun newsStep (SparesOthers SubscriptionState.standalone fun _ => 1) new addMeanwhile s := by
  obtain ⟨s, hs, hnone⟩ := allocates_removeAgain
  obtain ⟨t, ht, hnone'⟩ := allocates_addMeanwhile
  exact ⟨⟨s, hs, hnone, not_sparesOthers_removeAgain⟩, t, ht, hnone', not_sparesOthers_addMeanwhile⟩

end TopicState

end Redisson
