import Redisson.PatternSubscription
import Redisson.RedisGlob

/-! The two loops that hand what `fred` receives to the listeners. Neither event carries the
pattern it was sent for: the loops match every registered pattern with the channel again. -/

namespace Redisson

open Utf8Text

theorem startsWith_iff (s p : String) : startsWith s p = true ↔ p.toList <+: s.toList :=
  List.isPrefixOf_iff_prefix

def startsKeyspace (channel : String) : Bool :=
  startsWith channel "__keyspace@" || startsWith channel "__keyevent@"

def keyspacePrefix (db : UInt8) : String := "__keyspace@" ++ toString db.toNat ++ "__:"

def keyeventChannel (db : UInt8) (operation : String) : String :=
  "__keyevent@" ++ toString db.toNat ++ "__:" ++ operation

def fromUtf8Lossy (bs : Bytes) : String := String.ofList (decodeLossy bs)

def ValidUtf8 (bs : Bytes) : Prop := ∃ s : String, utf8Bytes s = bs

theorem decodeLossy_utf8Bytes (s : String) : decodeLossy (utf8Bytes s) = s.toList :=
  decodeLossy_encode s.toList

theorem utf8Bytes_fromUtf8Lossy {bs : Bytes} (h : ValidUtf8 bs) :
    utf8Bytes (fromUtf8Lossy bs) = bs := by
  obtain ⟨s, rfl⟩ := h
  rw [fromUtf8Lossy, decodeLossy_utf8Bytes, String.ofList_toList]

instance (bs : Bytes) : Decidable (ValidUtf8 bs) :=
  decidable_of_iff (utf8Bytes (fromUtf8Lossy bs) = bs) ⟨fun h => ⟨_, h⟩, utf8Bytes_fromUtf8Lossy⟩

/-- A message that Redis has for its subscribers: one that was published, on a channel that is
not reserved for keyspace notifications, or one of the two notifications of a key event. -/
inductive Notification
  | publish (channel : String) (value : Value) (ordinary : startsKeyspace channel = false)
  | keyspace (db : UInt8) (operation : String) (key : Bytes)
  | keyevent (db : UInt8) (operation : String) (key : Bytes)

inductive PubSubEvent
  | pmessage (channel : String) (value : Value)
  | keyspaceEvent (db : UInt8) (operation : String) (key : Bytes)

namespace Notification

def rawChannel : Notification → Bytes
  | publish channel _ _ => utf8Bytes channel
  | keyspace db _ key => utf8Bytes (keyspacePrefix db) ++ key
  | keyevent db operation _ => utf8Bytes (keyeventChannel db operation)

def isKeyspace : Notification → Bool
  | publish .. => false
  | keyspace .. | keyevent .. => true

/-- What `fred` makes of a message that it passes on. -/
def event : Notification → PubSubEvent
  | publish channel value _ => .pmessage channel value
  | keyspace db operation key | keyevent db operation key => .keyspaceEvent db operation key

/-- `fred` drops a message whose channel is no text: a keyspace notification of such a key. -/
def received (n : Notification) : Option PubSubEvent :=
  if ValidUtf8 n.rawChannel then some n.event else none

end Notification

structure ListenerCall where
  listener : PatternListener
  pattern : ChannelName
  channel : String
  value : Value

def PatternListener.onPatternMessage (l : PatternListener) (pattern : ChannelName)
    (channel : String) (value : Value) : Option ListenerCall :=
  if l.name = pattern.str then some ⟨l, pattern, channel, value⟩ else none

namespace PubSubEvent

def map : PubSubEvent → MapKind
  | pmessage .. => .patternListeners
  | keyspaceEvent .. => .keyspacePatternListeners

def presented : PubSubEvent → ChannelName → String × Value
  | pmessage channel value, _ => (channel, value)
  | keyspaceEvent db operation key, pattern =>
    if startsWith pattern.str "__keyevent" then
      (keyeventChannel db operation, .string (fromUtf8Lossy key))
    else (keyspacePrefix db ++ fromUtf8Lossy key, .string operation)

def selects (e : PubSubEvent) (pattern : ChannelName) : Bool :=
  redisGlobMatches pattern.str (e.presented pattern).1

def callListeners (e : PubSubEvent) (pattern : ChannelName) (listeners : List PatternListener) :
    List ListenerCall :=
  if e.selects pattern then
    listeners.filterMap fun l =>
      l.onPatternMessage pattern (e.presented pattern).1 (e.presented pattern).2
  else []

end PubSubEvent

def ListenerMaps.dispatch (maps : ListenerMaps) (e : PubSubEvent) : List ListenerCall :=
  (maps.get e.map).entries.flatMap fun entry => e.callListeners entry.1 entry.2

/-- The calls that a message of Redis leads to. -/
def ListenerMaps.receive (maps : ListenerMaps) (n : Notification) : List ListenerCall :=
  (n.received.map maps.dispatch).getD []

theorem ListenerMaps.receive_of_valid {maps : ListenerMaps} {n : Notification}
    (h : ValidUtf8 n.rawChannel) : maps.receive n = maps.dispatch n.event := by
  simp [receive, Notification.received, h]

theorem ListenerMaps.receive_of_not_valid {maps : ListenerMaps} {n : Notification}
    (h : ¬ ValidUtf8 n.rawChannel) : maps.receive n = [] := by
  simp [receive, Notification.received, h]

theorem map_event (n : Notification) :
    n.event.map = if n.isKeyspace then .keyspacePatternListeners else .patternListeners := by
  cases n <;> rfl

theorem mem_dispatch {maps : ListenerMaps} {e : PubSubEvent} {p : ChannelName}
    {ls : List PatternListener} {l : PatternListener} (hls : maps.lookup e.map p = some ls)
    (hl : l ∈ ls) (hname : l.name = p.str) (hsel : e.selects p = true) :
    ⟨l, p, (e.presented p).1, (e.presented p).2⟩ ∈ maps.dispatch e := by
  have hentry : Sigma.mk p ls ∈ (maps.get e.map).entries := AList.mem_lookup_iff.mp hls
  refine List.mem_flatMap.mpr ⟨_, hentry, ?_⟩
  unfold PubSubEvent.callListeners
  rw [if_pos hsel]
  refine List.mem_filterMap.mpr ⟨l, hl, ?_⟩
  unfold PatternListener.onPatternMessage
  rw [if_pos hname]

/-! The channel that the loop presents for a keyspace pattern is the one Redis matched. -/

def hasNoWildcard (w : List Char) : Bool := w.all fun c => c != '*' && c != '?'

theorem globInner_prefix {w p t : List Char} (hw : hasNoWildcard w = true)
    (h : globInner (w ++ p) t = true) : w <+: t := by
  induction w generalizing t with
  | nil => exact List.nil_prefix
  | cons c w ih =>
    obtain ⟨⟨hstar, hone⟩, hw'⟩ : (c ≠ '*' ∧ c ≠ '?') ∧ hasNoWildcard w = true := by
      simpa [hasNoWildcard] using hw
    cases t with
    | nil => simp [globInner, hstar] at h
    | cons x t =>
      have hx : x = c ∧ globInner (w ++ p) t = true := by
        simpa [globInner, hstar, hone] using h
      rw [hx.1]
      exact (List.prefix_cons_inj c).mpr (ih hw' hx.2)

theorem prefix_of_selected {pattern text literal : String}
    (hstart : startsWith pattern literal = true)
    (hliteral : hasNoWildcard literal.toList = true)
    (h : globInner pattern.toList text.toList = true) : literal.toList <+: text.toList := by
  obtain ⟨p, hp⟩ := (startsWith_iff pattern literal).mp hstart
  rw [← hp] at h
  exact globInner_prefix hliteral h

theorem not_both_prefixes {a b t : List Char} (hlen : a.length ≤ b.length) (hab : ¬ a <+: b)
    (ha : a <+: t) (hb : b <+: t) : False :=
  hab (List.prefix_of_prefix_length_le ha hb hlen)

theorem toList_prefix_append (s t : String) : s.toList <+: (s ++ t).toList := by
  rw [String.toList_append]
  exact List.prefix_append _ _

theorem keyspacePrefix_start (db : UInt8) : "__keyspace@".toList <+: (keyspacePrefix db).toList :=
  (toList_prefix_append "__keyspace@" _).trans (toList_prefix_append _ "__:")

theorem keyeventChannel_start (db : UInt8) (operation : String) :
    "__keyevent@".toList <+: (keyeventChannel db operation).toList :=
  ((toList_prefix_append "__keyevent@" _).trans (toList_prefix_append _ "__:")).trans
    (toList_prefix_append _ operation)

theorem keyspaceChannel_toList (db : UInt8) (key : Bytes) :
    (keyspacePrefix db ++ fromUtf8Lossy key).toList =
      decodeLossy (utf8Bytes (keyspacePrefix db) ++ key) := by
  have hdecode := decodeLossy_encode_append (keyspacePrefix db).toList key
  rw [String.toList_append, fromUtf8Lossy, String.toList_ofList]
  exact hdecode.symm

/-- A pattern that Redis matches with a keyspace channel is not taken for a keyevent one. -/
theorem not_keyevent_of_match {p : ChannelName} {db : UInt8} {operation : String} {key : Bytes}
    (hmatch : globInner p.str.toList
      (decodeLossy (Notification.keyspace db operation key).rawChannel) = true) :
    ¬ startsWith p.str "__keyevent" = true := by
  intro hstart
  have htext : "__keyevent".toList <+: (keyspacePrefix db ++ fromUtf8Lossy key).toList :=
    prefix_of_selected hstart (by decide +kernel) (keyspaceChannel_toList db key ▸ hmatch)
  have hpre : "__keyspace@".toList <+: (keyspacePrefix db ++ fromUtf8Lossy key).toList :=
    (keyspacePrefix_start db).trans (toList_prefix_append _ _)
  exact not_both_prefixes (by decide +kernel) (by decide +kernel) htext hpre

theorem keyevent_of_match {p : ChannelName} {db : UInt8} {operation : String} {key : Bytes}
    (hclass : p.isKeyspace = true)
    (hmatch : globInner p.str.toList
      (decodeLossy (Notification.keyevent db operation key).rawChannel) = true) :
    startsWith p.str "__keyevent" = true := by
  have hstarts : startsWith p.str "__keyspace" = true ∨ startsWith p.str "__keyevent" = true := by
    simpa [ChannelName.isKeyspace] using hclass
  have hraw := decodeLossy_utf8Bytes (keyeventChannel db operation)
  refine hstarts.resolve_left fun hstart => ?_
  have htext : "__keyspace".toList <+: (keyeventChannel db operation).toList :=
    prefix_of_selected hstart (by decide +kernel) (hraw ▸ hmatch)
  exact not_both_prefixes (by decide +kernel) (by decide +kernel) htext
    (keyeventChannel_start db operation)

/-- A pattern that is kept where the notification is looked for, and that Redis matches, is
presented with the channel that Redis matched. -/
theorem presented_channel {p : ChannelName} {n : Notification}
    (hclass : p.isKeyspace = n.isKeyspace)
    (hmatch : globInner p.str.toList (decodeLossy n.rawChannel) = true) :
    (n.event.presented p).1.toList = decodeLossy n.rawChannel := by
  cases n with
  | publish channel value ordinary => exact (decodeLossy_utf8Bytes channel).symm
  | keyspace db operation key =>
    simp only [Notification.event, PubSubEvent.presented, if_neg (not_keyevent_of_match hmatch)]
    exact keyspaceChannel_toList db key
  | keyevent db operation key =>
    simp only [Notification.event, PubSubEvent.presented, if_pos (keyevent_of_match hclass hmatch)]
    exact (decodeLossy_utf8Bytes (keyeventChannel db operation)).symm

end Redisson
