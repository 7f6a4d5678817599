import Redisson.PatternSubscription

/-! One `remove_listener` that no other call interferes with: the loop over the names, which
edits the maps and collects who has to be unsubscribed, and the Redis calls after it. -/

namespace Redisson

/-- What the calls of one `remove_listener` meet. The entry set is the set of primaries, so no
server is in it twice. -/
structure UnsubscribeReplies where
  managerAlive : Bool
  primaries : List Server
  unique : primaries.Nodup
  client : Except Error Unit
  node : Server → Except Error (Except Error Unit)
  finished : List Server → List Server
  perm : ∀ l, (finished l).Perm l

def subscriptionEntrySet (env : UnsubscribeReplies) : Except Error (List Server) :=
  if env.managerAlive then .ok env.primaries
  else .error ⟨"connection_manager not set or dropped"⟩

def UnsubscribeType.command : UnsubscribeType → String
  | .unsubscribe => "unsubscribe"
  | .punsubscribe => "punsubscribe"
  | .sunsubscribe => "sunsubscribe"

/-- The names that go to `keyspace_unsub` and not to `normal_unsub`. -/
def UnsubscribeType.separate (t : UnsubscribeType) (mode : ServerMode) (name : ChannelName) :
    Bool :=
  t == .punsubscribe && name.perNode mode

structure Removal where
  maps : ListenerMaps
  normalUnsub : List ChannelName
  keyspaceUnsub : List ChannelName

structure UnsubscribeCall where
  connection : PubSubConnection
  kind : UnsubscribeType
  channels : List ChannelName
  deriving DecidableEq, Repr

structure RemoveRun where
  result : Except Error Unit
  maps : ListenerMaps
  sent : List UnsubscribeCall

section Source

variable (mode : ServerMode) (t : UnsubscribeType) (ids : List ListenerId)

def removeName (r : Removal) (name : ChannelName) : Removal :=
  match r.maps.lookup (t.map name) name with
  | none => r
  | some ls =>
    let maps := r.maps.retain (t.map name) name ids
    if (retained ids ls).isEmpty then
      let maps := maps.remove (t.map name) name
      if t.separate mode name then { r with maps, keyspaceUnsub := r.keyspaceUnsub ++ [name] }
      else { r with maps, normalUnsub := r.normalUnsub ++ [name] }
    else { r with maps }

def removeNames (maps : ListenerMaps) (names : List ChannelName) : Removal :=
  names.foldl (removeName mode t ids) ⟨maps, [], []⟩

def unsubscribeTask (env : UnsubscribeReplies) (server : Server) :
    Except Error (Except Error Unit) :=
  (env.node server).map fun r => r.mapError fun e =>
    ⟨"punsubscribe on " ++ server.display ++ " failed: " ++ e.message⟩

def unsubscribeNormal (env : UnsubscribeReplies) (names : List ChannelName) :
    Except Error Unit × List UnsubscribeCall :=
  if names.isEmpty then (.ok (), [])
  else (env.client.mapError fun e => ⟨t.command ++ " failed: " ++ e.message⟩,
    [⟨.subscriber, t, names⟩])

def unsubscribeKeyspace (env : UnsubscribeReplies) (names : List ChannelName) :
    Except Error Unit × List UnsubscribeCall :=
  if names.isEmpty then (.ok (), [])
  else match subscriptionEntrySet env with
    | .error e => (.error e, [])
    | .ok entries =>
      (joinAll ((env.finished entries).map (unsubscribeTask env)),
        entries.map fun s => ⟨.clusterNode s, .punsubscribe, names⟩)

/-- What follows the loop. -/
def unsubscribeAll (env : UnsubscribeReplies) (r : Removal) : RemoveRun :=
  match unsubscribeNormal t env r.normalUnsub with
  -- the `?` of the ordinary call leaves before the keyspace patterns are looked at
  | (.error e, sent) => ⟨.error e, r.maps, sent⟩
  | (.ok (), sent) =>
    let k := unsubscribeKeyspace env r.keyspaceUnsub
    ⟨k.1, r.maps, sent ++ k.2⟩

def removeListener (env : UnsubscribeReplies) (maps : ListenerMaps) (names : List ChannelName) :
    RemoveRun :=
  unsubscribeAll t env (removeNames mode t ids maps names)

end Source

/-! What the loop leaves of one entry, and which names it collects. -/

def remaining (ids : List ListenerId) (o : Option (List PatternListener)) :
    Option (List PatternListener) :=
  o.bind fun ls => if (retained ids ls).isEmpty then none else some (retained ids ls)

theorem remaining_remaining (ids : List ListenerId) (o : Option (List PatternListener)) :
    remaining ids (remaining ids o) = remaining ids o := by
  cases o with
  | none => rfl
  | some ls =>
    by_cases h : retained ids ls = []
    · simp [remaining, h]
    · have hagain : retained ids (retained ids ls) = retained ids ls := by simp [retained]
      have hsome : remaining ids (some ls) = some (retained ids ls) := by simp [remaining, h]
      rw [hsome]
      simp [remaining, hagain, h]

/-- The entry of `name` is there and keeps no listener. -/
def dropped (t : UnsubscribeType) (ids : List ListenerId) (maps : ListenerMaps)
    (name : ChannelName) : Bool :=
  match maps.lookup (t.map name) name with
  | none => false
  | some ls => (retained ids ls).isEmpty

def Removal.work (r : Removal) : Bool → List ChannelName
  | true => r.keyspaceUnsub
  | false => r.normalUnsub

section Loop

variable (mode : ServerMode) (t : UnsubscribeType) (ids : List ListenerId)

theorem removeName_lookup (r : Removal) (name : ChannelName) (k : MapKind) (n : ChannelName) :
    (removeName mode t ids r name).maps.lookup k n =
      if k = t.map name ∧ n = name then remaining ids (r.maps.lookup k n)
      else r.maps.lookup k n := by
  unfold removeName
  cases hl : r.maps.lookup (t.map name) name with
  | none =>
    by_cases hkn : k = t.map name ∧ n = name
    · rw [if_pos hkn, hkn.1, hkn.2, hl]
      rfl
    · rw [if_neg hkn]
  | some ls =>
    by_cases hkn : k = t.map name ∧ n = name
    · rw [if_pos hkn, hkn.1, hkn.2, hl]
      by_cases he : retained ids ls = []
      · by_cases hs : t.separate mode name <;>
          simp [he, hs, remaining, ListenerMaps.remove, ListenerMaps.lookup_put]
      · simp [he, hl, remaining, ListenerMaps.retain, ListenerMaps.lookup_put]
    · rw [if_neg hkn]
      by_cases he : retained ids ls = []
      · by_cases hs : t.separate mode name <;>
          simp [he, hs, hkn, ListenerMaps.remove, ListenerMaps.retain, ListenerMaps.lookup_put]
      · simp [he, hkn, ListenerMaps.retain, ListenerMaps.lookup_put]

theorem removeName_work (r : Removal) (name : ChannelName) (b : Bool) :
    (removeName mode t ids r name).work b =
      r.work b ++
        if dropped t ids r.maps name && (t.separate mode name == b) then [name] else [] := by
  unfold removeName dropped
  cases hl : r.maps.lookup (t.map name) name with
  | none => simp
  | some ls =>
    by_cases he : retained ids ls = []
    · cases hs : t.separate mode name <;> cases b <;> simp [he, Removal.work]
    · cases b <;> simp [he, Removal.work]

/-- A name that is met again finds no entry, or one that keeps all it has. -/
theorem removeName_dropped (r : Removal) (name n : ChannelName) :
    dropped t ids (removeName mode t ids r name).maps n =
      (dropped t ids r.maps n && decide (n ≠ name)) := by
  unfold dropped
  rw [removeName_lookup]
  by_cases hn : n = name
  · subst hn
    rw [if_pos ⟨rfl, rfl⟩]
    cases r.maps.lookup (t.map n) n with
    | none => rfl
    | some ls =>
      by_cases he : retained ids ls = []
      · simp [remaining, he]
      · have hagain : retained ids (retained ids ls) = retained ids ls := by simp [retained]
        simp [remaining, he, hagain]
  · simp [hn]

theorem removeNames_lookup (maps : ListenerMaps) (names : List ChannelName) (k : MapKind)
    (n : ChannelName) :
    (removeNames mode t ids maps names).maps.lookup k n =
      if k = t.map n ∧ n ∈ names then remaining ids (maps.lookup k n) else maps.lookup k n := by
  have hrun : ∀ r : Removal, (names.foldl (removeName mode t ids) r).maps.lookup k n =
      if k = t.map n ∧ n ∈ names then remaining ids (r.maps.lookup k n)
      else r.maps.lookup k n := by
    induction names with
    | nil => simp
    | cons name names ih =>
      intro r
      rw [List.foldl_cons, ih, removeName_lookup]
      by_cases hn : n = name
      · subst hn
        by_cases hk : k = t.map n
        · by_cases hmem : n ∈ names <;> simp [hk, hmem, remaining_remaining]
        · simp [hk]
      · simp [hn]
  exact hrun _

theorem removeNames_count (maps : ListenerMaps) (names : List ChannelName) (b : Bool)
    (n : ChannelName) :
    ((removeNames mode t ids maps names).work b).count n =
      if n ∈ names ∧ dropped t ids maps n = true ∧ t.separate mode n = b then 1 else 0 := by
  have hrun : ∀ r : Removal, ((names.foldl (removeName mode t ids) r).work b).count n =
      (r.work b).count n +
        if n ∈ names ∧ dropped t ids r.maps n = true ∧ t.separate mode n = b then 1 else 0 := by
    induction names with
    | nil => simp
    | cons name names ih =>
      intro r
      rw [List.foldl_cons, ih, removeName_work, removeName_dropped, List.count_append]
      by_cases hn : n = name
      · subst hn
        by_cases hd : dropped t ids r.maps n = true ∧ t.separate mode n = b
        · simp [hd.1, hd.2]
        · have hno : (dropped t ids r.maps n && (t.separate mode n == b)) = false := by
            simpa using hd
          simp [hno, hd]
      · have hne : name ≠ n := fun h => hn h.symm
        by_cases hd : (dropped t ids r.maps name && (t.separate mode name == b)) = true
        · simp [hd, hn, hne]
        · simp [hd, hn]
  have hstart : (Removal.work ⟨maps, [], []⟩ b).count n = 0 := by cases b <;> rfl
  rw [removeNames, hrun, hstart, Nat.zero_add]

theorem mem_work_iff (maps : ListenerMaps) (names : List ChannelName) (b : Bool)
    (n : ChannelName) :
    n ∈ (removeNames mode t ids maps names).work b ↔
      n ∈ names ∧ dropped t ids maps n = true ∧ t.separate mode n = b := by
  rw [← List.count_pos_iff, removeNames_count]
  split <;> simp [*]

end Loop

/-! Which connections a name is unsubscribed on, and how often. -/

namespace UnsubscribeReplies

def carriers (env : UnsubscribeReplies) (mode : ServerMode) (t : UnsubscribeType)
    (name : ChannelName) : List PubSubConnection :=
  if t.separate mode name then env.primaries.map .clusterNode else [.subscriber]

structure AllSucceed (env : UnsubscribeReplies) : Prop where
  managerAlive : env.managerAlive = true
  client : env.client = .ok ()
  node : ∀ s ∈ env.primaries, env.node s = .ok (.ok ())

end UnsubscribeReplies

/-- How often an unsubscribe of `name` was put on `c`. -/
def attempts (sent : List UnsubscribeCall) (c : PubSubConnection) (name : ChannelName) : Nat :=
  ((sent.filter fun call => call.connection = c).flatMap UnsubscribeCall.channels).count name

def LosesLast (t : UnsubscribeType) (ids : List ListenerId) (maps : ListenerMaps)
    (name : ChannelName) : Prop :=
  ∃ ls, maps.lookup (t.map name) name = some ls ∧ ls ≠ [] ∧ ∀ l ∈ ls, l.id ∈ ids

theorem retained_eq_nil_iff (ids : List ListenerId) (ls : List PatternListener) :
    retained ids ls = [] ↔ ∀ l ∈ ls, l.id ∈ ids := by
  simp [retained]

theorem LosesLast.dropped {t : UnsubscribeType} {ids : List ListenerId} {maps : ListenerMaps}
    {name : ChannelName} (h : LosesLast t ids maps name) : dropped t ids maps name = true := by
  obtain ⟨ls, hl, -, hall⟩ := h
  have hr := (retained_eq_nil_iff ids ls).mpr hall
  simp [Redisson.dropped, hl, hr]

theorem losesLast_of_dropped {t : UnsubscribeType} {ids : List ListenerId} {maps : ListenerMaps}
    {name : ChannelName} (hmaps : maps.lookup (t.map name) name ≠ some [])
    (h : dropped t ids maps name = true) : LosesLast t ids maps name := by
  cases hl : maps.lookup (t.map name) name with
  | none => simp [dropped, hl] at h
  | some ls =>
    have hr : retained ids ls = [] := by simpa [dropped, hl] using h
    refine ⟨ls, hl, ?_, (retained_eq_nil_iff ids ls).mp hr⟩
    rintro rfl
    exact hmaps hl

section Calls

variable {mode : ServerMode} {t : UnsubscribeType} {ids : List ListenerId}
  {env : UnsubscribeReplies} {maps : ListenerMaps} {names : List ChannelName}

theorem attempts_append (xs ys : List UnsubscribeCall) (c : PubSubConnection)
    (name : ChannelName) :
    attempts (xs ++ ys) c name = attempts xs c name + attempts ys c name := by
  simp [attempts]

theorem attempts_normal (work : List ChannelName) (c : PubSubConnection) (name : ChannelName) :
    attempts (unsubscribeNormal t env work).2 c name =
      if c = .subscriber then work.count name else 0 := by
  unfold unsubscribeNormal attempts
  cases work with
  | nil => simp
  | cons n work =>
    by_cases hc : c = .subscriber
    · simp [hc]
    · have hne : PubSubConnection.subscriber ≠ c := fun h => hc h.symm
      simp [hc, hne]

theorem attempts_nodes (nodes : List Server) (hnodup : nodes.Nodup) (work : List ChannelName)
    (c : PubSubConnection) (name : ChannelName) :
    attempts (nodes.map fun s => ⟨.clusterNode s, .punsubscribe, work⟩) c name =
      if c ∈ nodes.map PubSubConnection.clusterNode then work.count name else 0 := by
  induction nodes with
  | nil => simp [attempts]
  | cons s nodes ih =>
    obtain ⟨hs, hnodup⟩ := List.nodup_cons.mp hnodup
    have hone : attempts [⟨.clusterNode s, .punsubscribe, work⟩] c name =
        if c = .clusterNode s then work.count name else 0 := by
      by_cases hc : PubSubConnection.clusterNode s = c
      · simp [attempts, hc]
      · have hne : c ≠ .clusterNode s := fun h => hc h.symm
        simp [attempts, hc, hne]
    have hcons := attempts_append [⟨.clusterNode s, .punsubscribe, work⟩]
      (nodes.map fun s => ⟨.clusterNode s, .punsubscribe, work⟩) c name
    rw [List.map_cons, ← List.singleton_append, hcons, hone, ih hnodup]
    by_cases hc : c = .clusterNode s
    · simp [hc, hs]
    · simp [hc]

theorem attempts_keyspace (halive : env.managerAlive = true) (work : List ChannelName)
    (c : PubSubConnection) (name : ChannelName) :
    attempts (unsubscribeKeyspace env work).2 c name =
      if c ∈ env.primaries.map PubSubConnection.clusterNode then work.count name else 0 := by
  unfold unsubscribeKeyspace subscriptionEntrySet
  cases work with
  | nil => simp [attempts]
  | cons n work =>
    rw [if_pos halive]
    exact attempts_nodes env.primaries env.unique (n :: work) c name

theorem attempts_keyspace_of_dead (hdead : ¬ env.managerAlive = true) (work : List ChannelName)
    (c : PubSubConnection) (name : ChannelName) :
    attempts (unsubscribeKeyspace env work).2 c name = 0 := by
  unfold unsubscribeKeyspace subscriptionEntrySet
  rw [if_neg hdead]
  cases work <;> simp [attempts]

theorem unsubscribeNormal_ok_iff (work : List ChannelName) :
    (unsubscribeNormal t env work).1 = .ok () ↔ work = [] ∨ env.client = .ok () := by
  unfold unsubscribeNormal
  cases work with
  | nil => simp
  | cons n work => cases env.client <;> simp [Except.mapError]

theorem unsubscribeTask_ok_iff (server : Server) :
    unsubscribeTask env server = .ok (.ok ()) ↔ env.node server = .ok (.ok ()) := by
  unfold unsubscribeTask
  rcases env.node server with e | e | u <;> simp [Except.map, Except.mapError]

theorem unsubscribeKeyspace_ok (h : env.AllSucceed) (work : List ChannelName) :
    (unsubscribeKeyspace env work).1 = .ok () := by
  unfold unsubscribeKeyspace subscriptionEntrySet
  rw [if_pos h.managerAlive]
  cases work with
  | nil => rfl
  | cons n work =>
    refine (joinAll_ok_iff _).mpr fun r hr => ?_
    obtain ⟨s, hs, rfl⟩ := List.mem_map.mp hr
    exact (unsubscribeTask_ok_iff s).mpr (h.node s ((env.perm env.primaries).mem_iff.mp hs))

theorem unsubscribeNormal_kind (work : List ChannelName) :
    ∀ call ∈ (unsubscribeNormal t env work).2, call.kind = t := by
  unfold unsubscribeNormal
  cases work <;> simp

theorem unsubscribeKeyspace_kind (work : List ChannelName) :
    ∀ call ∈ (unsubscribeKeyspace env work).2, call.kind = .punsubscribe := by
  unfold unsubscribeKeyspace
  cases work with
  | nil => simp
  | cons n work => cases subscriptionEntrySet env <;> simp

theorem unsubscribeAll_of_ok {r : Removal}
    (h : (unsubscribeNormal t env r.normalUnsub).1 = .ok ()) :
    unsubscribeAll t env r = ⟨(unsubscribeKeyspace env r.keyspaceUnsub).1, r.maps,
      (unsubscribeNormal t env r.normalUnsub).2 ++ (unsubscribeKeyspace env r.keyspaceUnsub).2⟩ := by
  unfold unsubscribeAll
  rcases hn : unsubscribeNormal t env r.normalUnsub with ⟨e | u, sent⟩
  · rw [hn] at h
    cases h
  · rfl

theorem unsubscribeAll_of_error {r : Removal} {e : Error}
    (h : (unsubscribeNormal t env r.normalUnsub).1 = .error e) :
    unsubscribeAll t env r = ⟨.error e, r.maps, (unsubscribeNormal t env r.normalUnsub).2⟩ := by
  unfold unsubscribeAll
  rcases hn : unsubscribeNormal t env r.normalUnsub with ⟨e' | u, sent⟩
  · rw [hn] at h
    cases h
    rfl
  · rw [hn] at h
    cases h

/-- The maps are done with before the first call. -/
theorem removeListener_maps :
    (removeListener mode t ids env maps names).maps = (removeNames mode t ids maps names).maps := by
  unfold removeListener
  cases hn : (unsubscribeNormal t env (removeNames mode t ids maps names).normalUnsub).1 with
  | error e => rw [unsubscribeAll_of_error hn]
  | ok u => rw [unsubscribeAll_of_ok hn]

theorem separate_of_mem_keyspace {name : ChannelName}
    (h : name ∈ (removeNames mode t ids maps names).keyspaceUnsub) : t = .punsubscribe := by
  have hsep := ((mem_work_iff mode t ids maps names true name).mp h).2.2
  have hand : t = .punsubscribe ∧ name.perNode mode = true := by
    simpa [UnsubscribeType.separate] using hsep
  exact hand.1

theorem keyspace_of_call {work : List ChannelName} {call : UnsubscribeCall}
    (h : call ∈ (unsubscribeKeyspace env work).2) : ∃ name, name ∈ work := by
  cases work with
  | nil => simp [unsubscribeKeyspace] at h
  | cons name work => exact ⟨name, List.mem_cons_self⟩

theorem unsubscribeAll_subscriber (r : Removal) (name : ChannelName) :
    attempts (unsubscribeAll t env r).sent .subscriber name = r.normalUnsub.count name := by
  cases hn : (unsubscribeNormal t env r.normalUnsub).1 with
  | error e => rw [unsubscribeAll_of_error hn, attempts_normal, if_pos rfl]
  | ok u =>
    rw [unsubscribeAll_of_ok hn, attempts_append, attempts_normal, if_pos rfl]
    by_cases halive : env.managerAlive = true
    · simp [attempts_keyspace halive]
    · simp [attempts_keyspace_of_dead halive]

theorem unsubscribeAll_node (r : Removal) (s : Server) (name : ChannelName) :
    attempts (unsubscribeAll t env r).sent (.clusterNode s) name =
      if s ∈ env.primaries ∧ env.managerAlive = true ∧
        (r.normalUnsub = [] ∨ env.client = .ok ()) then r.keyspaceUnsub.count name
      else 0 := by
  cases hn : (unsubscribeNormal t env r.normalUnsub).1 with
  | error e =>
    have hno : ¬ (r.normalUnsub = [] ∨ env.client = .ok ()) := by
      rw [← @unsubscribeNormal_ok_iff t, hn]
      simp
    rw [unsubscribeAll_of_error hn, attempts_normal, if_neg (by simp), if_neg fun h => hno h.2.2]
  | ok u =>
    have hyes := (unsubscribeNormal_ok_iff r.normalUnsub).mp hn
    rw [unsubscribeAll_of_ok hn, attempts_append, attempts_normal]
    by_cases halive : env.managerAlive = true
    · simp [attempts_keyspace halive, halive, hyes]
    · simp [attempts_keyspace_of_dead halive, halive]

end Calls

/-! What a removal is for, and what becomes of it when all its calls succeed. -/

structure RemovedExactly (mode : ServerMode) (t : UnsubscribeType) (ids : List ListenerId)
    (env : UnsubscribeReplies) (maps : ListenerMaps) (names : List ChannelName)
    (run : RemoveRun) : Prop where
  result : run.result = .ok ()
  named : ∀ name ∈ names, run.maps.lookup (t.map name) name =
    (maps.lookup (t.map name) name).bind fun ls =>
      if (retained ids ls).isEmpty then none else some (retained ids ls)
  others : ∀ k name, ¬ (name ∈ names ∧ k = t.map name) →
    run.maps.lookup k name = maps.lookup k name
  nonempty : ∀ k name, run.maps.lookup k name ≠ some []
  kind : ∀ call ∈ run.sent, call.kind = t
  unsubscribed : ∀ name ∈ names, LosesLast t ids maps name → ∀ c,
    attempts run.sent c name = if c ∈ env.carriers mode t name then 1 else 0
  noOther : ∀ name, ¬ (name ∈ names ∧ LosesLast t ids maps name) → ∀ c,
    attempts run.sent c name = 0

section Removal

variable (mode : ServerMode) (t : UnsubscribeType) (ids : List ListenerId)
  (env : UnsubscribeReplies) (maps : ListenerMaps) (names : List ChannelName)

theorem removeListener_attempts (h : env.AllSucceed) (c : PubSubConnection)
    (name : ChannelName) :
    attempts (removeListener mode t ids env maps names).sent c name =
      if c ∈ env.carriers mode t name ∧ name ∈ names ∧ dropped t ids maps name = true then 1
      else 0 := by
  have hnormal := removeNames_count mode t ids maps names false name
  have hkeyspace := removeNames_count mode t ids maps names true name
  simp only [Removal.work] at hnormal hkeyspace
  rw [removeListener, UnsubscribeReplies.carriers]
  cases c with
  | subscriber =>
    rw [unsubscribeAll_subscriber, hnormal]
    cases t.separate mode name <;> simp
  | clusterNode s =>
    rw [unsubscribeAll_node, hkeyspace]
    by_cases hs : s ∈ env.primaries
    · rw [if_pos ⟨hs, h.managerAlive, .inr h.client⟩]
      cases t.separate mode name <;> simp [hs]
    · rw [if_neg fun hh => hs hh.1]
      cases t.separate mode name <;> simp [hs]

/-! A cluster of two primaries on which both patterns have listeners. -/

def clusterPrimaries : List Server := [⟨"10.0.0.1", 7000⟩, ⟨"10.0.0.2", 7000⟩]

theorem clusterPrimaries_nodup : clusterPrimaries.Nodup := by decide

def clusterReplies (client : Except Error Unit) : UnsubscribeReplies :=
  ⟨true, clusterPrimaries, clusterPrimaries_nodup, client, fun _ => .ok (.ok ()), id, .refl⟩

def expiredPattern : ChannelName := ⟨"__keyevent@0__:expired"⟩

def watchedMaps : ListenerMaps :=
  (ListenerMaps.empty.put .patternListeners newsPattern (some [⟨1, "a"⟩, ⟨2, "b"⟩, ⟨3, "c"⟩])).put
    .keyspacePatternListeners expiredPattern (some [⟨3, "c"⟩])

theorem watchedMaps_nonempty (k : MapKind) (name : ChannelName) :
    watchedMaps.lookup k name ≠ some [] := by
  have hempty : ListenerMaps.empty.lookup k name = none := by cases k <;> rfl
  rw [watchedMaps, ListenerMaps.lookup_put, ListenerMaps.lookup_put, hempty]
  split
  · simp
  · split <;> simp

theorem removeListener_removedExactly (hmaps : ∀ k name, maps.lookup k name ≠ some [])
    (h : env.AllSucceed) :
    RemovedExactly mode t ids env maps names (removeListener mode t ids env maps names) := by
  have hn : (unsubscribeNormal t env (removeNames mode t ids maps names).normalUnsub).1 = .ok () :=
    (unsubscribeNormal_ok_iff _).mpr (.inr h.client)
  refine ⟨?_, ?_, ?_, ?_, ?_, ?_, ?_⟩
  · rw [removeListener, unsubscribeAll_of_ok hn]
    exact unsubscribeKeyspace_ok h _
  · intro name hname
    rw [removeListener_maps, removeNames_lookup, if_pos ⟨rfl, hname⟩]
    rfl
  · intro k name hno
    rw [removeListener_maps, removeNames_lookup, if_neg fun hh => hno ⟨hh.2, hh.1⟩]
  · intro k name
    rw [removeListener_maps, removeNames_lookup]
    split
    · cases hl : maps.lookup k name with
      | none => simp [remaining]
      | some ls => by_cases hr : retained ids ls = [] <;> simp [remaining, hr]
    · exact hmaps k name
  · intro call hcall
    rw [removeListener, unsubscribeAll_of_ok hn] at hcall
    rcases List.mem_append.mp hcall with hcall | hcall
    · exact unsubscribeNormal_kind _ call hcall
    · have hkind := unsubscribeKeyspace_kind _ call hcall
      obtain ⟨name, hname⟩ := keyspace_of_call hcall
      rw [hkind, separate_of_mem_keyspace hname]
  · intro name hname hlast c
    rw [removeListener_attempts mode t ids env maps names h]
    simp [hname, hlast.dropped]
  · intro name hno c
    rw [removeListener_attempts mode t ids env maps names h, if_neg]
    rintro ⟨-, hname, hd⟩
    exact hno ⟨hname, losesLast_of_dropped (hmaps _ _) hd⟩

theorem removeListener_removedExactly_cluster :
    RemovedExactly .cluster .punsubscribe [1, 3] (clusterReplies (.ok ())) watchedMaps
      [expiredPattern, newsPattern, expiredPattern]
      (removeListener .cluster .punsubscribe [1, 3] (clusterReplies (.ok ())) watchedMaps
        [expiredPattern, newsPattern, expiredPattern]) :=
  removeListener_removedExactly .cluster .punsubscribe [1, 3] (clusterReplies (.ok ()))
    watchedMaps [expiredPattern, newsPattern, expiredPattern] watchedMaps_nonempty
    ⟨rfl, rfl, fun _ _ => rfl⟩

/-- What ought to hold however the calls fail. -/
def NoOrphans : Prop :=
  ∀ name ∈ names, LosesLast t ids maps name →
    (∀ c ∈ env.carriers mode t name,
      0 < attempts (removeListener mode t ids env maps names).sent c name) ∨
    ((removeListener mode t ids env maps names).maps.lookup (t.map name) name).isSome

/-- The per-node calls are made, or there are none to make. -/
def KeyspaceReached : Prop :=
  (∀ name ∈ names, LosesLast t ids maps name → t.separate mode name = false) ∨
    env.primaries = [] ∨
    env.managerAlive = true ∧ (env.client = .ok () ∨
      ∀ name ∈ names, dropped t ids maps name = true → t.separate mode name = true)

theorem normalUnsub_eq_nil_iff :
    (removeNames mode t ids maps names).normalUnsub = [] ↔
      ∀ name ∈ names, dropped t ids maps name = true → t.separate mode name = true := by
  rw [List.eq_nil_iff_forall_not_mem]
  have hmem := mem_work_iff mode t ids maps names false
  simp only [Removal.work] at hmem
  simp only [hmem, not_and, Bool.not_eq_false]

theorem noOrphans_iff :
    NoOrphans mode t ids env maps names ↔ KeyspaceReached mode t ids env maps names := by
  have hnormal := removeNames_count mode t ids maps names false
  have hkeyspace := removeNames_count mode t ids maps names true
  simp only [Removal.work] at hnormal hkeyspace
  constructor
  · intro h
    by_contra hno
    simp only [KeyspaceReached, not_or] at hno
    obtain ⟨hall, hne, hreach⟩ := hno
    simp only [not_forall] at hall
    obtain ⟨name, hname, hlast, hsep⟩ := hall
    obtain ⟨s, hs⟩ := List.exists_mem_of_ne_nil _ hne
    have hsep : t.separate mode name = true := by simpa using hsep
    have hsilent : attempts (removeListener mode t ids env maps names).sent (.clusterNode s)
        name = 0 := by
      rw [← normalUnsub_eq_nil_iff mode] at hreach
      rw [removeListener, unsubscribeAll_node]
      exact if_neg fun hh => hreach ⟨hh.2.1, hh.2.2.symm⟩
    rcases h name hname hlast with hc | hm
    · have hpos := hc (.clusterNode s) (by simp [UnsubscribeReplies.carriers, hsep, hs])
      omega
    · obtain ⟨ls, hl, -, hids⟩ := hlast
      rw [removeListener_maps, removeNames_lookup, if_pos ⟨rfl, hname⟩, hl] at hm
      simp [remaining, (retained_eq_nil_iff ids ls).mpr hids] at hm
  · intro h name hname hlast
    left
    intro c hc
    have hd := hlast.dropped
    cases hsep : t.separate mode name with
    | false =>
      have hcs : c = .subscriber := by simpa [UnsubscribeReplies.carriers, hsep] using hc
      rw [hcs, removeListener, unsubscribeAll_subscriber, hnormal]
      simp [hname, hd, hsep]
    | true =>
      obtain ⟨s, hs, rfl⟩ : ∃ s ∈ env.primaries, PubSubConnection.clusterNode s = c := by
        simpa [UnsubscribeReplies.carriers, hsep] using hc
      rcases h with hall | hnil | hreach
      · rw [hall name hname hlast] at hsep
        cases hsep
      · rw [hnil] at hs
        cases hs
      · rw [← normalUnsub_eq_nil_iff mode] at hreach
        rw [removeListener, unsubscribeAll_node, if_pos ⟨hs, hreach.1, hreach.2.symm⟩, hkeyspace]
        simp [hname, hd, hsep]

end Removal

/-- The ordinary call fails, and the keyspace pattern of the same request is gone from its map
although no node was asked to drop it. -/
theorem removeListener_orphans :
    (removeListener .cluster .punsubscribe [1, 2, 3] (clusterReplies (.error ⟨"connection lost"⟩))
      watchedMaps [newsPattern, expiredPattern]).result =
        .error ⟨"punsubscribe failed: connection lost"⟩ ∧
    (removeListener .cluster .punsubscribe [1, 2, 3] (clusterReplies (.error ⟨"connection lost"⟩))
      watchedMaps [newsPattern, expiredPattern]).sent =
        [⟨.subscriber, .punsubscribe, [newsPattern]⟩] ∧
    ¬ NoOrphans .cluster .punsubscribe [1, 2, 3] (clusterReplies (.error ⟨"connection lost"⟩))
      watchedMaps [newsPattern, expiredPattern] := by
  refine ⟨by decide +kernel, by decide +kernel, fun h => ?_⟩
  have hlast : LosesLast .punsubscribe [1, 2, 3] watchedMaps expiredPattern :=
    ⟨[⟨3, "c"⟩], by decide +kernel, by decide, by decide⟩
  rcases h expiredPattern (by decide) hlast with hc | hm
  · have hone := hc (.clusterNode ⟨"10.0.0.1", 7000⟩) (by decide +kernel)
    revert hone
    decide +kernel
  · revert hm
    decide +kernel

end Redisson
