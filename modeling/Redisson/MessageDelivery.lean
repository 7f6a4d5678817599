import Redisson.Dispatch

/-! Which messages of a registered pattern reach its listeners. Redis's matching, `fred`'s choice
of the loop and the service's choice of the map must agree; they do on patterns of `*`, `?`
and plain characters that stay on one side of the keyspace prefixes. -/

namespace Redisson

open Utf8Text RedisGlob

/-- A listener of a pattern is called for a message, under the channel that Redis matched. -/
def Delivers (maps : ListenerMaps) (p : ChannelName) (l : PatternListener) (n : Notification) :
    Prop :=
  ∃ call ∈ maps.receive n, call.listener = l ∧ call.pattern = p ∧
    call.channel = fromUtf8Lossy n.rawChannel

theorem psubscribe_registers {mode : ServerMode} {env : PubSubReplies} {maps : ListenerMaps}
    {p : ChannelName} {listeners : List PatternListener}
    (h : (psubscribe mode env maps p listeners).result = .ok ()) :
    (psubscribe mode env maps p listeners).maps.lookup p.patternMap p =
      some ((maps.lookup p.patternMap p).getD [] ++ listeners) := by
  have hext : (maps.extend p.patternMap p listeners).lookup p.patternMap p =
      some ((maps.lookup p.patternMap p).getD [] ++ listeners) := by
    simp [ListenerMaps.extend, ListenerMaps.lookup_put]
  cases hl : maps.lookup p.patternMap p with
  | some ls =>
    rw [psubscribe_of_entry mode env maps p listeners (by simp [hl]), hext, hl]
  | none =>
    have hset : p.perNode mode = true → env.entrySet.isOk = true := by
      intro hn
      obtain ⟨entries, he, -⟩ : ∃ entries, env.entrySet = .ok entries ∧ _ := by
        have hacc := (psubscribe_ok_iff mode env maps p listeners hl).mp h
        unfold PubSubReplies.Accepts at hacc
        rwa [if_pos hn] at hacc
      simp [he, Except.isOk, Except.toBool]
    rw [psubscribe_maps mode env maps p listeners hl hset, h]
    rw [hl] at hext
    exact hext

/-- Every registered listener is called for every message whose channel is UTF-8 and matched by
Redis with the pattern, if the pattern has no brackets and no backslash, each of its `?` falls
on an ASCII byte, and pattern and message are both of the keyspace kind or both not. -/
theorem delivers_of_asciiGlob {maps : ListenerMaps} {p : ChannelName} {l : PatternListener}
    {n : Notification} (hreg : l ∈ (maps.lookup p.patternMap p).getD []) (hname : l.name = p.str)
    (hplain : Plain p.str.toList) (hclass : p.isKeyspace = n.isKeyspace)
    (hvalid : ValidUtf8 n.rawChannel)
    (hmatch : asciiGlob (utf8Bytes p.str) n.rawChannel = true) : Delivers maps p l n := by
  have hglob : globInner p.str.toList (decodeLossy n.rawChannel) = true :=
    globInner_decode hplain hmatch
  have hchannel := presented_channel hclass hglob
  have hsel : n.event.selects p = true := by
    unfold PubSubEvent.selects redisGlobMatches
    rw [hchannel]
    exact hglob
  obtain ⟨ls, hls, hl⟩ : ∃ ls, maps.lookup p.patternMap p = some ls ∧ l ∈ ls := by
    cases hls : maps.lookup p.patternMap p with
    | none => simp [hls] at hreg
    | some ls => exact ⟨ls, rfl, by simpa [hls] using hreg⟩
  have hmap : n.event.map = p.patternMap := by
    rw [map_event, ← hclass]
    rfl
  have hcall := mem_dispatch (hmap ▸ hls) hl hname hsel
  rw [← ListenerMaps.receive_of_valid hvalid] at hcall
  refine ⟨_, hcall, rfl, rfl, ?_⟩
  rw [fromUtf8Lossy, ← hchannel, String.ofList_toList]

/-! Matches of Redis that the service loses. -/

def subscription (p : ChannelName) : PsubscribeRun :=
  psubscribe .standalone (repliesWith (.ok ())) .empty p [⟨1, p.str⟩]

/-- The one listener of a pattern, registered without failure, misses a message that Redis sends
for the pattern. -/
structure Lost (p : ChannelName) (n : Notification) : Prop where
  registered : (subscription p).result = .ok ()
  matched : glob (utf8Bytes p.str) n.rawChannel = true
  missed : ¬ Delivers (subscription p).maps p ⟨1, p.str⟩ n

theorem Lost.of_isEmpty {p : ChannelName} {n : Notification}
    (h : (subscription p).result = .ok () ∧ glob (utf8Bytes p.str) n.rawChannel = true ∧
      ((subscription p).maps.receive n).isEmpty = true) : Lost p n := by
  refine ⟨h.1, h.2.1, ?_⟩
  rintro ⟨call, hcall, -⟩
  rw [List.isEmpty_iff.mp h.2.2] at hcall
  cases hcall

def published (channel : String) (h : startsKeyspace channel = false) : Notification :=
  .publish channel .null h

theorem matches_of_redis_lost :
    Lost ⟨"news.[ab]"⟩ (published "news.a" (by decide +kernel)) ∧
    Lost ⟨"news.\\*"⟩ (published "news.*" (by decide +kernel)) ∧
    Lost ⟨"h??llo"⟩ (published "hállo" (by decide +kernel)) ∧
    Lost ⟨"__keyspacefoo"⟩ (published "__keyspacefoo" (by decide +kernel)) ∧
    Lost ⟨"*"⟩ (.keyspace 0 "set" (utf8Bytes "foo")) := by
  refine ⟨?_, ?_, ?_, ?_, ?_⟩ <;> exact .of_isEmpty (by decide +kernel)

theorem delivers_accentedKey :
    Delivers (subscription ⟨"__keyspace@0__:user?:*"⟩).maps ⟨"__keyspace@0__:user?:*"⟩
      ⟨1, "__keyspace@0__:user?:*"⟩ (.keyspace 0 "set" (utf8Bytes "user1:hállo")) :=
  delivers_of_asciiGlob (by decide +kernel) rfl ⟨by decide +kernel, by decide +kernel⟩
    (by decide +kernel) ⟨"__keyspace@0__:user1:hállo", by decide +kernel⟩ (by decide +kernel)

end Redisson
