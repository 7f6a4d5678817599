import Redisson.FredTypes
import Mathlib.Data.List.AList

/-! The four listener maps of `PublishSubscribeService` and what `psubscribe` and
`remove_listener` do to one entry of them. A `DashMap` iterates in no fixed order, so all
that is said about a map is said through `lookup`. -/

namespace Redisson

def startsWith (s p : String) : Bool := p.toList.isPrefixOf s.toList

structure ChannelName where
  str : String
  deriving DecidableEq, Repr

def ChannelName.isKeyspace (name : ChannelName) : Bool :=
  startsWith name.str "__keyspace" || startsWith name.str "__keyevent"

/-- `ListenerId`, the address of the listener's `Arc`. -/
abbrev ListenerId := Nat

/-- `PubSubPatternMessageListener`, the one `RedisPubSubListener` there is, with its address. -/
structure PatternListener where
  id : ListenerId
  name : String
  deriving DecidableEq, Repr

def retained (ids : List ListenerId) (ls : List PatternListener) : List PatternListener :=
  ls.filter fun l => l.id ∉ ids

inductive UnsubscribeType
  | unsubscribe
  | punsubscribe
  | sunsubscribe
  deriving DecidableEq, Repr

inductive MapKind
  | patternListeners
  | keyspacePatternListeners
  | channelListeners
  | shardChannelListeners
  deriving DecidableEq, Repr

def ChannelName.patternMap (name : ChannelName) : MapKind :=
  if name.isKeyspace then .keyspacePatternListeners else .patternListeners

def UnsubscribeType.map (t : UnsubscribeType) (name : ChannelName) : MapKind :=
  match t with
  | .punsubscribe => name.patternMap
  | .unsubscribe => .channelListeners
  | .sunsubscribe => .shardChannelListeners

abbrev ListenerMap := AList fun _ : ChannelName => List PatternListener

structure ListenerMaps where
  patternListeners : ListenerMap
  keyspacePatternListeners : ListenerMap
  channelListeners : ListenerMap
  shardChannelListeners : ListenerMap

namespace ListenerMaps

def empty : ListenerMaps := ⟨∅, ∅, ∅, ∅⟩

def get (m : ListenerMaps) : MapKind → ListenerMap
  | .patternListeners => m.patternListeners
  | .keyspacePatternListeners => m.keyspacePatternListeners
  | .channelListeners => m.channelListeners
  | .shardChannelListeners => m.shardChannelListeners

def set (m : ListenerMaps) (k : MapKind) (l : ListenerMap) : ListenerMaps :=
  match k with
  | .patternListeners => { m with patternListeners := l }
  | .keyspacePatternListeners => { m with keyspacePatternListeners := l }
  | .channelListeners => { m with channelListeners := l }
  | .shardChannelListeners => { m with shardChannelListeners := l }

def lookup (m : ListenerMaps) (k : MapKind) (name : ChannelName) : Option (List PatternListener) :=
  (m.get k).lookup name

def put (m : ListenerMaps) (k : MapKind) (name : ChannelName)
    (o : Option (List PatternListener)) : ListenerMaps :=
  m.set k (match o with
    | some ls => (m.get k).insert name ls
    | none => (m.get k).erase name)

theorem get_set (m : ListenerMaps) (k k' : MapKind) (l : ListenerMap) :
    (m.set k l).get k' = if k' = k then l else m.get k' := by
  cases k <;> cases k' <;> rfl

theorem lookup_put (m : ListenerMaps) (k k' : MapKind) (name name' : ChannelName)
    (o : Option (List PatternListener)) :
    (m.put k name o).lookup k' name' = if k' = k ∧ name' = name then o else m.lookup k' name' := by
  unfold put lookup
  rw [get_set]
  by_cases hk : k' = k
  · subst hk
    by_cases hn : name' = name
    · subst hn
      cases o with
      | none => simp
      | some ls => simp
    · cases o with
      | none => simp [hn, AList.lookup_erase_ne hn]
      | some ls => simp [hn, AList.lookup_insert_ne hn]
  · simp [hk]

theorem lookup_put_patternMap (m : ListenerMaps) (p q : ChannelName)
    (o : Option (List PatternListener)) :
    (m.put p.patternMap p o).lookup q.patternMap q =
      if q = p then o else m.lookup q.patternMap q := by
  rw [lookup_put]
  by_cases h : q = p
  · rw [if_pos ⟨congrArg _ h, h⟩, if_pos h]
  · rw [if_neg fun hh => h hh.2, if_neg h]

def extend (m : ListenerMaps) (k : MapKind) (name : ChannelName) (ls : List PatternListener) :
    ListenerMaps :=
  m.put k name (some ((m.lookup k name).getD [] ++ ls))

/-- `get_mut(name)`, and `clear` when there is an entry. -/
def clear (m : ListenerMaps) (k : MapKind) (name : ChannelName) : ListenerMaps :=
  m.put k name ((m.lookup k name).map fun _ => [])

def retain (m : ListenerMaps) (k : MapKind) (name : ChannelName) (ids : List ListenerId) :
    ListenerMaps :=
  m.put k name ((m.lookup k name).map (retained ids))

def remove (m : ListenerMaps) (k : MapKind) (name : ChannelName) : ListenerMaps :=
  m.put k name none

end ListenerMaps

end Redisson
