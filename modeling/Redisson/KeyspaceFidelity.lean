import Redisson.MessageDelivery

/-! `fred` takes a keyspace notification apart into database, operation and key bytes; the
dispatch loop puts channel and payload together again from these three. -/

namespace Redisson

open Utf8Text RedisGlob

/-- The message that Redis sends on the channel: the operation of a keyspace notification, the
key of a keyevent one. -/
def Notification.payload : Notification → Bytes
  | publish _ value _ => value.hashedBytes.getD []
  | keyspace _ operation _ => utf8Bytes operation
  | keyevent _ _ key => key

/-- The listeners of `p` are called once each, with `p`, the channel of the notification and
the bytes of its message, and no other listener is. -/
def Reconstructs (maps : ListenerMaps) (p : ChannelName) (ls : List PatternListener)
    (n : Notification) : Prop :=
  ∃ (channel : String) (value : Value),
    maps.receive n = ls.map (fun l => ⟨l, p, channel, value⟩) ∧
      utf8Bytes channel = n.rawChannel ∧ value.hashedBytes = some n.payload

theorem isKeyspace_of_startsKeyspace {p : ChannelName} (h : startsKeyspace p.str = true) :
    p.isKeyspace = true := by
  have hlonger : ∀ a b : String, startsWith p.str (a ++ b) = true → startsWith p.str a = true := by
    intro a b hab
    rw [startsWith_iff] at hab ⊢
    exact (toList_prefix_append a b).trans hab
  unfold ChannelName.isKeyspace
  rcases (Bool.or_eq_true _ _).mp h with h | h
  · rw [hlonger "__keyspace" "@" h, Bool.true_or]
  · rw [hlonger "__keyevent" "@" h, Bool.or_true]

/-- What the loop makes of a notification: channel and message, decoded. -/
theorem presented_eq {p : ChannelName} {n : Notification} (hn : n.isKeyspace = true)
    (hclass : p.isKeyspace = true)
    (hmatch : redisGlobMatches p.str (fromUtf8Lossy n.rawChannel) = true) :
    n.event.presented p =
      (fromUtf8Lossy n.rawChannel, .string (fromUtf8Lossy n.payload)) := by
  have hglob : globInner p.str.toList (decodeLossy n.rawChannel) = true := by
    simpa [redisGlobMatches, fromUtf8Lossy] using hmatch
  have hchannel := presented_channel (hclass.trans hn.symm) hglob
  have hfst : (n.event.presented p).1 = fromUtf8Lossy n.rawChannel := by
    rw [fromUtf8Lossy, ← hchannel, String.ofList_toList]
  refine Prod.ext hfst ?_
  cases n with
  | publish channel value ordinary => cases hn
  | keyspace db operation key =>
    simp only [Notification.event, PubSubEvent.presented, if_neg (not_keyevent_of_match hglob),
      Notification.payload, fromUtf8Lossy, decodeLossy_utf8Bytes, String.ofList_toList]
  | keyevent db operation key =>
    simp only [Notification.event, PubSubEvent.presented, if_pos (keyevent_of_match hclass hglob),
      Notification.payload]

theorem dispatch_single {maps : ListenerMaps} {p : ChannelName} {ls : List PatternListener}
    {e : PubSubEvent} (hsingle : (maps.get e.map).entries = [⟨p, ls⟩])
    (hname : ∀ l ∈ ls, l.name = p.str) (hsel : e.selects p = true) :
    maps.dispatch e = ls.map fun l => ⟨l, p, (e.presented p).1, (e.presented p).2⟩ := by
  rw [ListenerMaps.dispatch, hsingle, List.flatMap_singleton, PubSubEvent.callListeners,
    if_pos hsel, ← List.filterMap_eq_map]
  refine List.filterMap_congr fun l hl => ?_
  simp [PatternListener.onPatternMessage, hname l hl]

section Single

variable {maps : ListenerMaps} {p : ChannelName} {ls : List PatternListener} {n : Notification}

theorem dispatch_eq (hp : startsKeyspace p.str = true)
    (hsingle : maps.keyspacePatternListeners.entries = [⟨p, ls⟩])
    (hname : ∀ l ∈ ls, l.name = p.str) (hn : n.isKeyspace = true)
    (hmatch : redisGlobMatches p.str (fromUtf8Lossy n.rawChannel) = true) :
    maps.dispatch n.event = ls.map fun l =>
      ⟨l, p, fromUtf8Lossy n.rawChannel, .string (fromUtf8Lossy n.payload)⟩ := by
  have hpresented := presented_eq hn (isKeyspace_of_startsKeyspace hp) hmatch
  have hmap : n.event.map = .keyspacePatternListeners := by rw [map_event, if_pos hn]
  have hsel : n.event.selects p = true := by
    rw [PubSubEvent.selects, hpresented]
    exact hmatch
  rw [dispatch_single (hmap ▸ hsingle) hname hsel, hpresented]

/-- A notification on a UTF-8 channel calls each listener of the one pattern once, and no other,
with exactly this channel and, where it is text, exactly its message. On any other channel it
calls nobody. -/
theorem dispatch_notification (hp : startsKeyspace p.str = true)
    (hsingle : maps.keyspacePatternListeners.entries = [⟨p, ls⟩])
    (hname : ∀ l ∈ ls, l.name = p.str) (hn : n.isKeyspace = true)
    (hmatch : redisGlobMatches p.str (fromUtf8Lossy n.rawChannel) = true) :
    (ValidUtf8 n.rawChannel → ∃ channel message : String,
      maps.receive n = ls.map (fun l => ⟨l, p, channel, .string message⟩) ∧
        utf8Bytes channel = n.rawChannel ∧
        (ValidUtf8 n.payload → utf8Bytes message = n.payload)) ∧
    (¬ ValidUtf8 n.rawChannel → maps.receive n = []) := by
  refine ⟨fun hv => ⟨_, _, ?_, utf8Bytes_fromUtf8Lossy hv, utf8Bytes_fromUtf8Lossy⟩,
    ListenerMaps.receive_of_not_valid⟩
  rw [ListenerMaps.receive_of_valid hv]
  exact dispatch_eq hp hsingle hname hn hmatch

theorem dispatch_notification_key : ∃ channel message : String,
    (subscription ⟨"__keyevent@0__:*"⟩).maps.receive (.keyevent 0 "del" (utf8Bytes "a:[b]*")) =
      [⟨1, "__keyevent@0__:*"⟩].map
        (fun l => ⟨l, ⟨"__keyevent@0__:*"⟩, channel, .string message⟩) ∧
      utf8Bytes channel = (Notification.keyevent 0 "del" (utf8Bytes "a:[b]*")).rawChannel ∧
      (ValidUtf8 (utf8Bytes "a:[b]*") → utf8Bytes message = utf8Bytes "a:[b]*") :=
  (dispatch_notification (n := .keyevent 0 "del" (utf8Bytes "a:[b]*")) (by decide +kernel)
    (by decide +kernel) (by decide +kernel) rfl (by decide +kernel)).1
    ⟨"__keyevent@0__:del", by decide +kernel⟩

/-- A notification comes through unchanged if and only if all of it is text. -/
theorem reconstructs_iff (hp : startsKeyspace p.str = true)
    (hsingle : maps.keyspacePatternListeners.entries = [⟨p, ls⟩]) (hls : ls ≠ [])
    (hname : ∀ l ∈ ls, l.name = p.str) (hn : n.isKeyspace = true)
    (hmatch : redisGlobMatches p.str (fromUtf8Lossy n.rawChannel) = true) :
    Reconstructs maps p ls n ↔ ValidUtf8 n.rawChannel ∧ ValidUtf8 n.payload := by
  have hdispatch := dispatch_eq hp hsingle hname hn hmatch
  constructor
  · rintro ⟨channel, value, hd, hchannel, hvalue⟩
    have hv : ValidUtf8 n.rawChannel := ⟨channel, hchannel⟩
    obtain ⟨l, rest, rfl⟩ := List.exists_cons_of_ne_nil hls
    rw [ListenerMaps.receive_of_valid hv, hdispatch, List.map_cons, List.map_cons,
      List.cons.injEq, ListenerCall.mk.injEq] at hd
    rw [← hd.1.2.2.2] at hvalue
    exact ⟨hv, ⟨_, Option.some.inj hvalue⟩⟩
  · intro h
    have hd := (ListenerMaps.receive_of_valid h.1).trans hdispatch
    exact ⟨_, _, hd, utf8Bytes_fromUtf8Lossy h.1, congrArg some (utf8Bytes_fromUtf8Lossy h.2)⟩

end Single

theorem not_validUtf8 {bs : Bytes} (h : utf8Bytes (fromUtf8Lossy bs) ≠ bs) : ¬ ValidUtf8 bs :=
  fun hv => h (utf8Bytes_fromUtf8Lossy hv)

/-! A key that is no text, in the message and in the channel, which nobody receives, and a match
that is lost. -/

theorem reconstructs_fails :
    (glob (utf8Bytes "__keyevent@0__:*") (Notification.keyevent 0 "del" [0xFF]).rawChannel = true ∧
      ¬ Reconstructs (subscription ⟨"__keyevent@0__:*"⟩).maps ⟨"__keyevent@0__:*"⟩
        [⟨1, "__keyevent@0__:*"⟩] (.keyevent 0 "del" [0xFF])) ∧
    (glob (utf8Bytes "__keyspace@0__:*") (Notification.keyspace 0 "del" [0xFF]).rawChannel = true ∧
      (subscription ⟨"__keyspace@0__:*"⟩).maps.receive (.keyspace 0 "del" [0xFF]) = [] ∧
      ¬ Reconstructs (subscription ⟨"__keyspace@0__:*"⟩).maps ⟨"__keyspace@0__:*"⟩
        [⟨1, "__keyspace@0__:*"⟩] (.keyspace 0 "del" [0xFF])) ∧
    (glob (utf8Bytes "__keyevent@0__:[de]*")
        (Notification.keyevent 0 "del" [0x61]).rawChannel = true ∧
      ¬ Reconstructs (subscription ⟨"__keyevent@0__:[de]*"⟩).maps ⟨"__keyevent@0__:[de]*"⟩
        [⟨1, "__keyevent@0__:[de]*"⟩] (.keyevent 0 "del" [0x61])) := by
  have hdropped : (subscription ⟨"__keyspace@0__:*"⟩).maps.receive (.keyspace 0 "del" [0xFF]) = [] :=
    ListenerMaps.receive_of_not_valid (by decide +kernel)
  refine ⟨⟨by decide +kernel, fun h => ?_⟩, ⟨by decide +kernel, hdropped, ?_⟩,
    by decide +kernel, ?_⟩
  · have hvalid := (reconstructs_iff (by decide +kernel) (by decide +kernel) (by decide)
      (by decide +kernel) rfl (by decide +kernel)).mp h
    exact not_validUtf8 (by decide +kernel) hvalid.2
  · rintro ⟨channel, value, hd, -⟩
    rw [hdropped] at hd
    cases hd
  · rintro ⟨channel, value, hd, -⟩
    have hnobody : ((subscription ⟨"__keyevent@0__:[de]*"⟩).maps.receive
        (.keyevent 0 "del" [0x61])).length = 0 := by decide +kernel
    rw [hd] at hnobody
    cases hnobody

end Redisson
