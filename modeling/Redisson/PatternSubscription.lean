import Redisson.ListenerMaps

/-! One `psubscribe` that no other call interferes with, and what is left of it when the
Redis calls fail. -/

namespace Redisson

inductive ServerMode
  | standalone
  | cluster
  | sentinel
  deriving DecidableEq, Repr

/-- Where a PSUBSCRIBE is sent: on the subscriber's own connection, or on that of one node. -/
inductive PubSubConnection
  | subscriber
  | clusterNode (server : Server)
  deriving DecidableEq, Repr

def Server.display (s : Server) : String := s.host ++ ":" ++ toString s.port.toNat

namespace ChannelName

/-- Patterns that are subscribed on every node and not on the subscriber's own connection. -/
def perNode (name : ChannelName) (mode : ServerMode) : Bool :=
  mode == .cluster && name.isKeyspace

end ChannelName

/-- What one call of `psubscribe` meets: the entry set, the reply to the subscriber's own
PSUBSCRIBE, the end of the task of each node (which may panic), and the order in which the
tasks finish. -/
structure PubSubReplies where
  entrySet : Except Error (List Server)
  client : Except Error Unit
  node : Server → Except Error (Except Error Unit)
  finished : List Server → List Server
  perm : ∀ l, (finished l).Perm l

def joinAll (results : List (Except Error (Except Error Unit))) : Except Error Unit :=
  let firstErr := results.foldl (fun firstErr res =>
    match res with
    | .error e => firstErr.or (some ⟨"task panicked: " ++ e.message⟩)
    | .ok (.error e) => firstErr.or (some e)
    | .ok (.ok ()) => firstErr) none
  match firstErr with
  | some e => .error e
  | none => .ok ()

structure PsubscribeRun where
  result : Except Error Unit
  maps : ListenerMaps
  sent : List (PubSubConnection × ChannelName)

def subscribeInternal (env : PubSubReplies) (name : ChannelName) : Except Error Unit :=
  env.client.mapError fun e => ⟨"psubscribe to " ++ name.str ++ " failed: " ++ e.message⟩

def nodeTask (env : PubSubReplies) (name : ChannelName) (server : Server) :
    Except Error (Except Error Unit) :=
  (env.node server).map fun r => r.mapError fun e =>
    ⟨"psubscribe to " ++ name.str ++ " on " ++ server.display ++ " failed: " ++ e.message⟩

def clearOnError (result : Except Error Unit) (maps : ListenerMaps) (name : ChannelName) :
    ListenerMaps :=
  match result with
  | .error _ => maps.clear name.patternMap name
  | .ok () => maps

def psubscribe (mode : ServerMode) (env : PubSubReplies) (maps : ListenerMaps)
    (name : ChannelName) (listeners : List PatternListener) : PsubscribeRun :=
  let already := (maps.lookup name.patternMap name).isSome
  let maps := maps.extend name.patternMap name listeners
  if already then ⟨.ok (), maps, []⟩
  else if name.perNode mode then
    match env.entrySet with
    -- the `?` leaves here, before the entry is cleared
    | .error e => ⟨.error e, maps, []⟩
    | .ok entries =>
      let result := joinAll ((env.finished entries).map (nodeTask env name))
      ⟨result, clearOnError result maps name, entries.map fun s => (.clusterNode s, name)⟩
  else
    let result := subscribeInternal env name
    ⟨result, clearOnError result maps name, [(.subscriber, name)]⟩

namespace PubSubReplies

def carriers (env : PubSubReplies) (mode : ServerMode) (name : ChannelName) : List PubSubConnection :=
  if name.perNode mode then
    match env.entrySet with
    | .error _ => []
    | .ok entries => entries.map .clusterNode
  else [.subscriber]

def Accepts (env : PubSubReplies) (mode : ServerMode) (name : ChannelName) : Prop :=
  if name.perNode mode then
    ∃ entries, env.entrySet = .ok entries ∧ ∀ s ∈ entries, env.node s = .ok (.ok ())
  else env.client = .ok ()

end PubSubReplies

theorem joinAll_ok_iff (results : List (Except Error (Except Error Unit))) :
    joinAll results = .ok () ↔ ∀ r ∈ results, r = .ok (.ok ()) := by
  let record := fun (firstErr : Option Error) (res : Except Error (Except Error Unit)) =>
    match res with
    | .error e => firstErr.or (some ⟨"task panicked: " ++ e.message⟩)
    | .ok (.error e) => firstErr.or (some e)
    | .ok (.ok ()) => firstErr
  -- once an error is recorded the fold keeps it
  have hfold : ∀ (rs : List (Except Error (Except Error Unit))) (o : Option Error),
      rs.foldl record o = none ↔ o = none ∧ ∀ r ∈ rs, r = .ok (.ok ()) := by
    intro rs
    induction rs with
    | nil => simp
    | cons r rs ih =>
      intro o
      rw [List.foldl_cons, ih]
      match r with
      | .error e => simp [record]
      | .ok (.error e) => simp [record]
      | .ok (.ok ()) => simp [record]
  have hjoin : joinAll results = .ok () ↔ results.foldl record none = none := by
    change (match results.foldl record none with
      | some e => Except.error e
      | none => .ok ()) = .ok () ↔ _
    cases results.foldl record none <;> simp
  rw [hjoin, hfold]
  simp

section Psubscribe

variable (mode : ServerMode) (env : PubSubReplies) (maps : ListenerMaps) (name : ChannelName)
  (listeners : List PatternListener)

theorem nodeTask_ok_iff (server : Server) :
    nodeTask env name server = .ok (.ok ()) ↔ env.node server = .ok (.ok ()) := by
  unfold nodeTask
  rcases env.node server with e | e | u <;> simp [Except.map, Except.mapError]

theorem subscribeInternal_ok_iff : subscribeInternal env name = .ok () ↔ env.client = .ok () := by
  unfold subscribeInternal
  cases env.client <;> simp [Except.mapError]

/-- A name with an entry, if only an empty one, is taken to be subscribed. -/
theorem psubscribe_of_entry (h : (maps.lookup name.patternMap name).isSome) :
    psubscribe mode env maps name listeners =
      ⟨.ok (), maps.extend name.patternMap name listeners, []⟩ := by
  simp [psubscribe, h]

theorem psubscribe_ok_iff (h : maps.lookup name.patternMap name = none) :
    (psubscribe mode env maps name listeners).result = .ok () ↔ env.Accepts mode name := by
  unfold psubscribe PubSubReplies.Accepts
  by_cases hn : name.perNode mode
  · cases he : env.entrySet with
    | error e => simp [h, hn]
    | ok entries =>
      have hmem : ∀ s, s ∈ env.finished entries ↔ s ∈ entries := fun s => (env.perm entries).mem_iff
      simp [h, hn, joinAll_ok_iff, nodeTask_ok_iff, hmem]
  · simp [h, hn, subscribeInternal_ok_iff]

theorem psubscribe_sent (h : maps.lookup name.patternMap name = none) :
    (psubscribe mode env maps name listeners).sent =
      (env.carriers mode name).map fun c => (c, name) := by
  unfold psubscribe PubSubReplies.carriers
  by_cases hn : name.perNode mode
  · cases he : env.entrySet <;> simp [h, hn]
  · simp [h, hn]

theorem psubscribe_maps (h : maps.lookup name.patternMap name = none)
    (hset : name.perNode mode = true → env.entrySet.isOk = true) :
    (psubscribe mode env maps name listeners).maps =
      clearOnError (psubscribe mode env maps name listeners).result
        (maps.extend name.patternMap name listeners) name := by
  unfold psubscribe
  by_cases hn : name.perNode mode = true
  · cases he : env.entrySet with
    | error e =>
      rw [he] at hset
      exact absurd (hset hn) (by simp [Except.isOk, Except.toBool])
    | ok entries => simp [h, hn]
  · simp [h, hn]

theorem psubscribe_maps_of_no_entries (h : maps.lookup name.patternMap name = none)
    (hn : name.perNode mode = true) (hset : env.entrySet.isOk = false) :
    (psubscribe mode env maps name listeners).maps =
      maps.extend name.patternMap name listeners := by
  unfold psubscribe
  cases he : env.entrySet with
  | error e => simp [h, hn]
  | ok entries => simp [he, Except.isOk, Except.toBool] at hset

/-- Every `psubscribe` leaves an entry behind, whatever became of its calls. -/
theorem psubscribe_entry :
    ((psubscribe mode env maps name listeners).maps.lookup name.patternMap name).isSome := by
  have hext : ((maps.extend name.patternMap name listeners).lookup name.patternMap name).isSome := by
    simp [ListenerMaps.extend, ListenerMaps.lookup_put]
  have hclear : ∀ r, ((clearOnError r (maps.extend name.patternMap name listeners) name).lookup
      name.patternMap name).isSome := by
    intro r
    cases r with
    | error e => simpa [clearOnError, ListenerMaps.clear, ListenerMaps.lookup_put] using hext
    | ok u => exact hext
  by_cases hl : (maps.lookup name.patternMap name).isSome
  · rw [psubscribe_of_entry mode env maps name listeners hl]
    exact hext
  · unfold psubscribe
    by_cases hn : name.perNode mode
    · cases he : env.entrySet with
      | error e => simpa [hl, hn] using hext
      | ok entries => simpa [hl, hn] using hclear _
    · simpa [hl, hn] using hclear _

/-- After any `psubscribe` of a name, the next one of it returns `Ok` and sends nothing. -/
theorem psubscribe_again (env' : PubSubReplies) (listeners' : List PatternListener) :
    (psubscribe mode env' (psubscribe mode env maps name listeners).maps name listeners').result
        = .ok () ∧
      (psubscribe mode env' (psubscribe mode env maps name listeners).maps name listeners').sent
        = [] := by
  rw [psubscribe_of_entry mode env' _ name listeners'
    (psubscribe_entry mode env maps name listeners)]
  exact ⟨rfl, rfl⟩

/-- What a failing `psubscribe` ought to leave: both pattern maps as they were, and a next
call that does not return `Ok` before it has asked every connection again. -/
structure RolledBack (after : ListenerMaps) : Prop where
  patternListeners : ∀ p, after.lookup .patternListeners p = maps.lookup .patternListeners p
  keyspacePatternListeners : ∀ p,
    after.lookup .keyspacePatternListeners p = maps.lookup .keyspacePatternListeners p
  subscribesAgain : ∀ (env' : PubSubReplies) (listeners' : List PatternListener),
    (psubscribe mode env' after name listeners').result = .ok () →
      (psubscribe mode env' after name listeners').sent =
        (env'.carriers mode name).map fun c => (c, name)

def AtomicOnFailure : Prop :=
  ∀ e, (psubscribe mode env maps name listeners).result = .error e →
    RolledBack mode maps name (psubscribe mode env maps name listeners).maps

variable {mode maps name} in
theorem RolledBack.lookup {after : ListenerMaps} (h : RolledBack mode maps name after) :
    after.lookup name.patternMap name = maps.lookup name.patternMap name := by
  unfold ChannelName.patternMap
  split
  · exact h.keyspacePatternListeners name
  · exact h.patternListeners name

/-- A `psubscribe` is atomic on failure only where it cannot fail. -/
theorem atomicOnFailure_iff :
    AtomicOnFailure mode env maps name listeners ↔
      (maps.lookup name.patternMap name).isSome ∨ env.Accepts mode name := by
  constructor
  · intro h
    by_contra hno
    obtain ⟨habsent, hrefused⟩ := not_or.mp hno
    have hnone : maps.lookup name.patternMap name = none := by simpa using habsent
    cases hr : (psubscribe mode env maps name listeners).result with
    | ok u => exact hrefused ((psubscribe_ok_iff mode env maps name listeners hnone).mp hr)
    | error e =>
      have hlook := (h e hr).lookup
      have hentry := psubscribe_entry mode env maps name listeners
      rw [hlook, hnone] at hentry
      cases hentry
  · intro h e he
    have hok : (psubscribe mode env maps name listeners).result = .ok () := by
      rcases hl : maps.lookup name.patternMap name with - | ls
      · have hacc : env.Accepts mode name := by simpa [hl] using h
        exact (psubscribe_ok_iff mode env maps name listeners hl).mpr hacc
      · rw [psubscribe_of_entry mode env maps name listeners (by simp [hl])]
    rw [hok] at he
    cases he

end Psubscribe

/-! The subscriber's connection is down for one call. -/

def repliesWith (client : Except Error Unit) : PubSubReplies :=
  ⟨.ok [], client, fun _ => .ok (.ok ()), id, fun _ => .refl _⟩

def newsPattern : ChannelName := ⟨"news.*"⟩

/-- The call that fails leaves an entry without listeners, and the call after it returns
`Ok` although no PSUBSCRIBE was ever accepted. -/
theorem psubscribe_failure_sticks :
    (psubscribe .standalone (repliesWith (.error ⟨"connection lost"⟩)) .empty newsPattern
      [⟨1, "news.*"⟩]).result = .error ⟨"psubscribe to news.* failed: connection lost"⟩ ∧
    (psubscribe .standalone (repliesWith (.error ⟨"connection lost"⟩)) .empty newsPattern
      [⟨1, "news.*"⟩]).maps.lookup .patternListeners newsPattern = some [] ∧
    ¬ AtomicOnFailure .standalone (repliesWith (.error ⟨"connection lost"⟩)) .empty newsPattern
      [⟨1, "news.*"⟩] := by
  refine ⟨by decide +kernel, by decide +kernel, fun h => ?_⟩
  have hl := (h _ rfl).lookup
  revert hl
  decide +kernel

end Redisson
