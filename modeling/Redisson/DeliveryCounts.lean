import Redisson.Dispatch

/-! How often a listener is called for what Redis sends. Redis sends one pmessage for each
subscribed pattern that matches, and for each of them the loops serve every registered pattern
that they select. -/

namespace Redisson

/-- The two pattern maps at rest: every pattern is in its own map and subscribed in Redis, and
each listener is one that `add_listener` made for its pattern. -/
structure PatternRegistry where
  maps : ListenerMaps
  ordinary : ∀ p ∈ maps.patternListeners, p.isKeyspace = false
  keyspace : ∀ p ∈ maps.keyspacePatternListeners, p.isKeyspace = true
  named : ∀ k p ls, maps.lookup k p = some ls → ∀ l ∈ ls, l.name = p.str

abbrev RedisMatches := Bytes → Bytes → Bool

namespace PatternRegistry

def empty : PatternRegistry where
  maps := .empty
  ordinary _ h := by cases h
  keyspace _ h := by cases h
  named k _ _ h := by cases k <;> cases h

/-- What `psubscribe` and `remove_listener` do to an entry keeps the registry one. -/
def put (reg : PatternRegistry) (p : ChannelName) (o : Option (List PatternListener))
    (h : ∀ ls ∈ o, ∀ l ∈ ls, l.name = p.str) : PatternRegistry where
  maps := reg.maps.put p.patternMap p o
  ordinary q hq := by
    have hlook : ((reg.maps.put p.patternMap p o).lookup .patternListeners q).isSome :=
      AList.lookup_isSome.mpr hq
    rw [ListenerMaps.lookup_put] at hlook
    by_cases hsame : .patternListeners = p.patternMap ∧ q = p
    · obtain ⟨hmap, rfl⟩ := hsame
      cases hk : q.isKeyspace with
      | false => rfl
      | true => simp [ChannelName.patternMap, hk] at hmap
    · rw [if_neg hsame] at hlook
      exact reg.ordinary q (AList.lookup_isSome.mp hlook)
  keyspace q hq := by
    have hlook : ((reg.maps.put p.patternMap p o).lookup .keyspacePatternListeners q).isSome :=
      AList.lookup_isSome.mpr hq
    rw [ListenerMaps.lookup_put] at hlook
    by_cases hsame : .keyspacePatternListeners = p.patternMap ∧ q = p
    · obtain ⟨hmap, rfl⟩ := hsame
      cases hk : q.isKeyspace with
      | true => rfl
      | false => simp [ChannelName.patternMap, hk] at hmap
    · rw [if_neg hsame] at hlook
      exact reg.keyspace q (AList.lookup_isSome.mp hlook)
  named k q ls hls := by
    rw [ListenerMaps.lookup_put] at hls
    by_cases hsame : k = p.patternMap ∧ q = p
    · rw [if_pos hsame] at hls
      obtain ⟨-, rfl⟩ := hsame
      exact h ls hls
    · rw [if_neg hsame] at hls
      exact reg.named k q ls hls

variable (reg : PatternRegistry) (redis : RedisMatches)

def patterns : List ChannelName :=
  reg.maps.patternListeners.keys ++ reg.maps.keyspacePatternListeners.keys

def listeners (p : ChannelName) : List PatternListener := (reg.maps.lookup p.patternMap p).getD []

def matching (n : Notification) : List ChannelName :=
  reg.patterns.filter fun p => redis (utf8Bytes p.str) n.rawChannel

def calls (ns : List Notification) : List ListenerCall :=
  ns.flatMap fun n => (reg.matching redis n).flatMap fun _ => reg.maps.dispatch n.event

def callCount (ns : List Notification) (p : ChannelName) (l : PatternListener) : Nat :=
  (reg.calls redis ns).countP fun c => c.pattern = p ∧ c.listener = l

def sentCount (ns : List Notification) (p : ChannelName) : Nat :=
  ns.countP fun n => redis (utf8Bytes p.str) n.rawChannel

/-- Each listener of a pattern is called once, for each time it was added, for each message that
was sent on behalf of the pattern. -/
def ExactDelivery (ns : List Notification) : Prop :=
  ∀ p ∈ reg.patterns, ∀ l, reg.callCount redis ns p l =
    sentCount redis ns p * (reg.listeners p).count l

def Serves (n : Notification) (p : ChannelName) : Prop :=
  p.isKeyspace = n.isKeyspace ∧ n.event.selects p = true

/-- A pattern with listeners that Redis matches is served and is the only match; one that Redis
does not match is not served by the messages for other patterns. -/
def WellMatched (n : Notification) : Prop :=
  ∀ p ∈ reg.patterns, reg.listeners p ≠ [] →
    if redis (utf8Bytes p.str) n.rawChannel then
      Serves n p ∧ ∀ q ∈ reg.patterns, redis (utf8Bytes q.str) n.rawChannel = true → q = p
    else Serves n p → ∀ q ∈ reg.patterns, redis (utf8Bytes q.str) n.rawChannel = false

instance (n : Notification) (p : ChannelName) : Decidable (Serves n p) :=
  inferInstanceAs (Decidable (_ ∧ _))

theorem nodup_patterns : reg.patterns.Nodup := by
  refine List.Nodup.append reg.maps.patternListeners.keys_nodup
    reg.maps.keyspacePatternListeners.keys_nodup fun p hp hk => ?_
  have h₁ := reg.ordinary p hp
  have h₂ := reg.keyspace p hk
  rw [h₁] at h₂
  cases h₂

/-! One message. -/

theorem countP_entries {α : Type*} {m : List (Sigma fun _ : ChannelName => List PatternListener)}
    (hnodup : m.NodupKeys) {p : ChannelName} {P : α → Bool}
    {f : ChannelName → List PatternListener → List α}
    (hother : ∀ q ls, q ≠ p → (f q ls).countP P = 0) :
    (m.flatMap fun e => f e.1 e.2).countP P =
      ((m.dlookup p).map fun ls => (f p ls).countP P).getD 0 := by
  induction m with
  | nil => rfl
  | cons e m ih =>
    obtain ⟨q, ls⟩ := e
    obtain ⟨hq, hm⟩ := List.nodupKeys_cons.mp hnodup
    rw [List.flatMap_cons, List.countP_append, ih hm]
    by_cases hqp : q = p
    · subst hqp
      have hnone : m.dlookup q = none := List.dlookup_eq_none.mpr hq
      simp [hnone]
    · rw [hother q ls hqp, List.dlookup_cons_ne m ⟨q, ls⟩ (Ne.symm hqp)]
      simp

theorem countP_callListeners (e : PubSubEvent) (p : ChannelName) (ls : List PatternListener)
    (hnamed : ∀ l ∈ ls, l.name = p.str) (l : PatternListener) :
    (e.callListeners p ls).countP (fun c => c.pattern = p ∧ c.listener = l) =
      if e.selects p then ls.count l else 0 := by
  unfold PubSubEvent.callListeners
  split
  · induction ls with
    | nil => rfl
    | cons x ls ih =>
      have hx : x.onPatternMessage p (e.presented p).1 (e.presented p).2 =
          some ⟨x, p, (e.presented p).1, (e.presented p).2⟩ := by
        unfold PatternListener.onPatternMessage
        rw [if_pos (hnamed x (by simp))]
      rw [List.filterMap_cons, hx]
      simp only [List.countP_cons, List.count_cons, ih fun y hy => hnamed y (by simp [hy])]
      simp
  · rfl

theorem countP_callListeners_other (e : PubSubEvent) {p q : ChannelName} (hq : q ≠ p)
    (ls : List PatternListener) (l : PatternListener) :
    (e.callListeners q ls).countP (fun c => c.pattern = p ∧ c.listener = l) = 0 := by
  refine List.countP_eq_zero.mpr fun c hc hp => ?_
  unfold PubSubEvent.callListeners at hc
  split at hc
  · obtain ⟨x, -, hx⟩ := List.mem_filterMap.mp hc
    unfold PatternListener.onPatternMessage at hx
    split at hx
    · cases hx
      simp [hq] at hp
    · cases hx
  · cases hc

theorem lookup_event {n : Notification} {p : ChannelName} :
    reg.maps.lookup n.event.map p =
      if p.isKeyspace = n.isKeyspace then reg.maps.lookup p.patternMap p else none := by
  rw [map_event]
  by_cases hclass : p.isKeyspace = n.isKeyspace
  · rw [if_pos hclass, ← hclass]
    rfl
  · rw [if_neg hclass]
    cases hn : n.isKeyspace with
    | true =>
      rw [hn] at hclass
      exact AList.lookup_eq_none.mpr fun hp => hclass (reg.keyspace p hp)
    | false =>
      rw [hn] at hclass
      exact AList.lookup_eq_none.mpr fun hp => hclass (reg.ordinary p hp)

theorem countP_dispatch (n : Notification) (p : ChannelName) (l : PatternListener) :
    (reg.maps.dispatch n.event).countP (fun c => c.pattern = p ∧ c.listener = l) =
      if Serves n p then (reg.listeners p).count l else 0 := by
  have hentries := countP_entries (reg.maps.get n.event.map).nodupKeys
    (P := fun c => decide (c.pattern = p ∧ c.listener = l)) (p := p) (f := n.event.callListeners)
    fun q ls hq => countP_callListeners_other n.event hq ls l
  have hlookup : (reg.maps.get n.event.map).entries.dlookup p =
      if p.isKeyspace = n.isKeyspace then reg.maps.lookup p.patternMap p else none :=
    reg.lookup_event
  unfold ListenerMaps.dispatch
  rw [hentries, hlookup]
  by_cases hclass : p.isKeyspace = n.isKeyspace
  · rw [if_pos hclass]
    unfold listeners
    cases hls : reg.maps.lookup p.patternMap p with
    | none =>
      change 0 = _
      split <;> rfl
    | some ls =>
      have hcount := countP_callListeners n.event p ls (reg.named _ p ls hls) l
      simpa [Serves, hclass] using hcount
  · rw [if_neg hclass, if_neg fun hs : Serves n p => hclass hs.1]
    rfl

/-! Sequences. -/

theorem callCount_singleton (n : Notification) (p : ChannelName) (l : PatternListener) :
    reg.callCount redis [n] p l =
      (reg.matching redis n).length * if Serves n p then (reg.listeners p).count l else 0 := by
  have hconst : ∀ qs : List ChannelName,
      (qs.flatMap fun _ => reg.maps.dispatch n.event).countP
        (fun c => c.pattern = p ∧ c.listener = l) =
      qs.length * if Serves n p then (reg.listeners p).count l else 0 := by
    intro qs
    induction qs with
    | nil => simp
    | cons q qs ih =>
      rw [List.flatMap_cons, List.countP_append, ih, reg.countP_dispatch, List.length_cons,
        Nat.succ_mul, Nat.add_comm]
  unfold callCount calls
  rw [List.flatMap_cons, List.flatMap_nil, List.append_nil]
  exact hconst _

theorem callCount_cons (n : Notification) (ns : List Notification) (p : ChannelName)
    (l : PatternListener) : reg.callCount redis (n :: ns) p l =
      reg.callCount redis [n] p l + reg.callCount redis ns p l := by
  unfold callCount calls
  simp only [List.flatMap_cons, List.flatMap_nil, List.append_nil, List.countP_append]

theorem sentCount_cons (n : Notification) (ns : List Notification) (p : ChannelName) :
    sentCount redis (n :: ns) p = sentCount redis [n] p + sentCount redis ns p := by
  unfold sentCount
  simp only [List.countP_cons, List.countP_nil]
  omega

theorem ExactDelivery.cons_iff {n : Notification} {ns : List Notification}
    (hn : reg.ExactDelivery redis [n]) :
    reg.ExactDelivery redis (n :: ns) ↔ reg.ExactDelivery redis ns := by
  unfold ExactDelivery at hn ⊢
  refine forall_congr' fun p => forall_congr' fun hp => forall_congr' fun l => ?_
  have h₁ := hn p hp l
  rw [callCount_cons, sentCount_cons, Nat.add_mul]
  omega

theorem exactDelivery_nil : reg.ExactDelivery redis [] := by
  intro p hp l
  simp [callCount, calls, sentCount]

theorem exactDelivery_prefixes_iff (ns : List Notification) :
    (∀ ms, ms <+: ns → reg.ExactDelivery redis ms) ↔ ∀ n ∈ ns, reg.ExactDelivery redis [n] := by
  induction ns with
  | nil =>
    constructor
    · intro h n hn
      cases hn
    · intro h ms hms
      rw [List.prefix_nil.mp hms]
      exact reg.exactDelivery_nil redis
  | cons n ns ih =>
    constructor
    · intro h
      have hn := h [n] ⟨ns, rfl⟩
      have hrest := ih.mp fun ms hms =>
        (ExactDelivery.cons_iff reg redis hn).mp (h (n :: ms) ((List.prefix_cons_inj n).mpr hms))
      exact List.forall_mem_cons.mpr ⟨hn, hrest⟩
    · intro h ms hms
      obtain ⟨hn, hrest⟩ := List.forall_mem_cons.mp h
      cases ms with
      | nil => exact reg.exactDelivery_nil redis
      | cons m ms =>
        obtain ⟨rfl, hms'⟩ := List.cons_prefix_cons.mp hms
        exact (ExactDelivery.cons_iff reg redis hn).mpr (ih.mpr hrest ms hms')

theorem mem_matching {n : Notification} {q : ChannelName} :
    q ∈ reg.matching redis n ↔ q ∈ reg.patterns ∧ redis (utf8Bytes q.str) n.rawChannel = true := by
  unfold matching
  rw [List.mem_filter]

theorem length_matching_eq_one {n : Notification} {p : ChannelName}
    (hp : p ∈ reg.matching redis n) :
    (reg.matching redis n).length = 1 ↔ ∀ q ∈ reg.matching redis n, q = p := by
  have hnodup : (reg.matching redis n).Nodup := reg.nodup_patterns.filter _
  constructor
  · intro hlen q hq
    obtain ⟨x, hx⟩ := List.length_eq_one_iff.mp hlen
    rw [hx, List.mem_singleton] at hp hq
    rw [hq, hp]
  · intro hall
    match hm : reg.matching redis n with
    | [] =>
      rw [hm] at hp
      cases hp
    | [x] => rfl
    | x :: y :: rest =>
      rw [hm] at hall hnodup
      have hx := hall x (by simp)
      have hy := hall y (by simp)
      rw [hx, hy] at hnodup
      simp at hnodup

theorem sentCount_singleton (n : Notification) (p : ChannelName) :
    sentCount redis [n] p = if redis (utf8Bytes p.str) n.rawChannel then 1 else 0 := by
  simp [sentCount, List.countP_cons]

theorem ExactDelivery.wellMatched {n : Notification} (h : reg.ExactDelivery redis [n]) :
    reg.WellMatched redis n := by
  intro p hp hne
  obtain ⟨l, hl⟩ := List.exists_mem_of_ne_nil _ hne
  have hcount : 0 < (reg.listeners p).count l := List.count_pos_iff.mpr hl
  have heq := h p hp l
  rw [callCount_singleton, sentCount_singleton] at heq
  by_cases hr : redis (utf8Bytes p.str) n.rawChannel = true
  · rw [if_pos hr, Nat.one_mul] at heq
    rw [if_pos hr]
    have hs : Serves n p := by
      by_contra hno
      rw [if_neg hno, Nat.mul_zero] at heq
      omega
    rw [if_pos hs] at heq
    have hone : (reg.matching redis n).length = 1 :=
      Nat.eq_of_mul_eq_mul_right hcount (heq.trans (Nat.one_mul _).symm)
    have hmem : p ∈ reg.matching redis n := (reg.mem_matching redis).mpr ⟨hp, hr⟩
    have hall := (reg.length_matching_eq_one redis hmem).mp hone
    exact ⟨hs, fun q hq hrq => hall q ((reg.mem_matching redis).mpr ⟨hq, hrq⟩)⟩
  · rw [if_neg hr, Nat.zero_mul] at heq
    rw [if_neg hr]
    intro hs q hq
    rw [if_pos hs] at heq
    have hzero : (reg.matching redis n).length = 0 := by
      rcases Nat.mul_eq_zero.mp heq with hz | hz
      · exact hz
      · omega
    have hnil := List.length_eq_zero_iff.mp hzero
    by_contra hrq
    have hmem : q ∈ reg.matching redis n :=
      (reg.mem_matching redis).mpr ⟨hq, by simpa using hrq⟩
    rw [hnil] at hmem
    cases hmem

theorem WellMatched.exactDelivery {n : Notification} (h : reg.WellMatched redis n) :
    reg.ExactDelivery redis [n] := by
  intro p hp l
  rw [callCount_singleton, sentCount_singleton]
  by_cases hne : reg.listeners p = []
  · simp [hne]
  · have hp' := h p hp hne
    by_cases hr : redis (utf8Bytes p.str) n.rawChannel = true
    · rw [if_pos hr] at hp' ⊢
      obtain ⟨hs, hall⟩ := hp'
      have hmem : p ∈ reg.matching redis n := (reg.mem_matching redis).mpr ⟨hp, hr⟩
      have hone := (reg.length_matching_eq_one redis hmem).mpr fun q hq =>
        hall q ((reg.mem_matching redis).mp hq).1 ((reg.mem_matching redis).mp hq).2
      rw [if_pos hs, hone]
    · rw [if_neg hr] at hp' ⊢
      by_cases hs : Serves n p
      · have hnil : reg.matching redis n = [] := by
          refine List.eq_nil_iff_forall_not_mem.mpr fun q hq => ?_
          obtain ⟨hq, hrq⟩ := (reg.mem_matching redis).mp hq
          rw [hp' hs q hq] at hrq
          cases hrq
        simp [hnil]
      · rw [if_neg hs, Nat.mul_zero, Nat.zero_mul]

/-- What Redis sends is delivered exactly, at every point of a sequence of messages, when each of
them is well matched. -/
theorem exactDelivery_iff (ns : List Notification) :
    (∀ ms, ms <+: ns → reg.ExactDelivery redis ms) ↔ ∀ n ∈ ns, reg.WellMatched redis n := by
  rw [exactDelivery_prefixes_iff]
  exact forall_congr' fun n => forall_congr' fun _ =>
    ⟨ExactDelivery.wellMatched reg redis, WellMatched.exactDelivery reg redis⟩

/-! Two patterns that overlap, and a message on a channel of both. -/

def newsRegistry : PatternRegistry :=
  (empty.put newsPattern (some [⟨1, "news.*"⟩]) (by simp [newsPattern])).put ⟨"*.art"⟩
    (some [⟨2, "*.art"⟩]) (by simp)

def newsArt : Notification := .publish "news.art" (.string "x") (by decide +kernel)

/-- Each of the two listeners is called twice for the one message sent for its pattern. -/
theorem overlapping_patterns_called_twice :
    newsRegistry.callCount RedisGlob.glob [newsArt] newsPattern ⟨1, "news.*"⟩ = 2 ∧
    newsRegistry.callCount RedisGlob.glob [newsArt] ⟨"*.art"⟩ ⟨2, "*.art"⟩ = 2 ∧
    sentCount RedisGlob.glob [newsArt] newsPattern = 1 ∧
    sentCount RedisGlob.glob [newsArt] ⟨"*.art"⟩ = 1 ∧
    ¬ newsRegistry.ExactDelivery RedisGlob.glob [newsArt] := by
  have htwice : newsRegistry.callCount RedisGlob.glob [newsArt] newsPattern ⟨1, "news.*"⟩ = 2 := by
    decide +kernel
  refine ⟨htwice, by decide +kernel, by decide +kernel, by decide +kernel, fun h => ?_⟩
  have hexact := h newsPattern (by decide +kernel) ⟨1, "news.*"⟩
  rw [htwice] at hexact
  revert hexact
  decide +kernel

end PatternRegistry

end Redisson
