import Redisson.GroupTask
import Mathlib.Data.List.Rotate

/-! `execute_in_memory` as a whole, and what it means for the callers of `async0`: which
reply each of them receives, compared with what Redis answered to its command. -/

namespace Redisson

/-- The order in which the spawned tasks finish, and how many still finish between the
first failure that `join_next` reports and the abort of the rest. -/
structure Schedule where
  order : List Group → List Group
  order_perm : ∀ gs, (order gs).Perm gs
  late : Nat

/-- The tasks that get as far as sending; dropping the `JoinSet` aborts the others. -/
def settled (late : Nat) (tasks : List TaskOutcome) : List TaskOutcome :=
  tasks.take (tasks.findIdx TaskOutcome.failed + 1 + late)

def collect : List TaskOutcome → Int → List (Nat × Value) →
    Except Error (Int × List (Nat × Value))
  | [], syncedSlaves, allIndexed => .ok (syncedSlaves, allIndexed)
  | t :: ts, syncedSlaves, allIndexed =>
    match t.result with
    | .error e => .error e
    | .ok (s, idx) => collect ts (syncedSlaves + s) (allIndexed ++ idx)

/-- What one `execute_in_memory` does: the pipelines that its tasks hand to nodes unless they are
aborted before, what reaches the senders of the queued commands, and what it returns. -/
structure BatchRun where
  pipelines : List (Server × Pipeline)
  sends : List (Nat × Reply)
  result : Except Error BatchResult

section InMemory

variable {sha1 : String → String} (svc : BatchService) (env : Environment sha1)

def runGroups (groups : List Group) (sched : Schedule) : BatchRun :=
  let tasks := (sched.order groups).map (Group.run svc env)
  { pipelines := ((sched.order groups).filter fun g => (env.enqueueError g.mse.primary).isNone).map
      fun g => (g.mse.primary, g.pipeline svc)
    sends := (settled sched.late tasks).flatMap TaskOutcome.sends
    result := (collect tasks 0 []).map fun (syncedSlaves, allIndexed) =>
      ⟨(allIndexed.mergeSort fun a b => a.1 ≤ b.1).map Prod.snd, syncedSlaves⟩ }

def executeInMemory (q : Queue) (sched : Schedule) : BatchRun :=
  if q.entries.isEmpty then ⟨[], [], .ok ⟨[], 0⟩⟩
  else
    match prepare svc env q with
    | .error e => ⟨[], [], .error e⟩
    | .ok groups => runGroups svc env groups sched

/-- What `rx.await` gives the caller of `async0`; a sender dropped unused closes it. -/
def callerResult (run : BatchRun) (index : Nat) : Reply :=
  match run.sends.find? (fun s => s.1 = index) with
  | some s => s.2
  | none => .error ⟨"batch channel closed (execute_async not called before drop)"⟩

/-- Redis answered the command queued under `index` with `r`. -/
def Answered (q : Queue) (index : Nat) (r : Reply) : Prop :=
  ∃ groups, prepare svc env q = .ok groups ∧ ∃ g ∈ groups, ∃ j : Nat,
    ((g.commands[j]?).map BatchCommandData.index = some index) ∧ g.answer svc env j = some r

/-- Every caller that receives a value receives the answer to its own command, and the
caller of a command that Redis answered with an error receives an error. -/
def HonestReplies (q : Queue) : Prop :=
  ∀ sched : Schedule, ∀ d ∈ q.entries,
    (∀ v, callerResult (executeInMemory svc env q sched) d.index = .ok v →
      Answered svc env q d.index (.ok v)) ∧
    ∀ e, Answered svc env q d.index (.error e) →
      ∃ e', callerResult (executeInMemory svc env q sched) d.index = .error e'

end InMemory

section Delivery

variable {sha1 : String → String} {svc : BatchService} {env : Environment sha1} {q : Queue}

theorem callerResult_ok {run : BatchRun} {i : Nat} {v : Value} (h : callerResult run i = .ok v) :
    (i, .ok v) ∈ run.sends := by
  unfold callerResult at h
  cases hf : run.sends.find? (fun s => s.1 = i) with
  | none => simp [hf] at h
  | some s =>
    have hs : s.1 = i := by simpa using List.find?_some hf
    have hr : s.2 = .ok v := by simpa [hf] using h
    have hm := List.mem_of_find?_eq_some hf
    rwa [← hs, ← hr]

theorem mem_runGroups_sends {groups : List Group} {sched : Schedule} {s : Nat × Reply}
    (h : s ∈ (runGroups svc env groups sched).sends) :
    ∃ g ∈ groups, s ∈ (g.run svc env).sends := by
  obtain ⟨t, ht, hs⟩ := List.mem_flatMap.mp h
  obtain ⟨g, hg, rfl⟩ := List.mem_map.mp (List.mem_of_mem_take ht)
  exact ⟨g, (sched.order_perm groups).mem_iff.mp hg, hs⟩

theorem executeInMemory_ok {groups : List Group} {sched : Schedule} (hq : q.entries ≠ [])
    (hp : prepare svc env q = .ok groups) :
    executeInMemory svc env q sched = runGroups svc env groups sched := by
  simp [executeInMemory, hq, hp]

theorem executeInMemory_sends_nil {sched : Schedule}
    (h : ∀ groups, prepare svc env q ≠ .ok groups) :
    (executeInMemory svc env q sched).sends = [] := by
  unfold executeInMemory
  split
  · rfl
  · cases hp : prepare svc env q with
    | error e => rfl
    | ok groups => exact absurd hp (h groups)

theorem prepare_flatMap_indexes_nodup {groups : List Group} (hp : prepare svc env q = .ok groups) :
    (groups.flatMap Group.indexes).Nodup := by
  have hh := prepare_indexes_nodup hp
  rwa [List.map_flatMap] at hh

theorem place_unique {groups : List Group} (hp : prepare svc env q = .ok groups) {g g' : Group}
    (hg : g ∈ groups) (hg' : g' ∈ groups) {j j' i : Nat}
    (hj : (g.commands[j]?).map BatchCommandData.index = some i)
    (hj' : (g'.commands[j']?).map BatchCommandData.index = some i) : g = g' ∧ j = j' := by
  have hnd := List.nodup_flatMap.mp (prepare_flatMap_indexes_nodup hp)
  have hi : g.indexes[j]? = some i := by simpa [Group.indexes] using hj
  have hi' : g'.indexes[j']? = some i := by simpa [Group.indexes] using hj'
  have heq : g = g' := by
    by_contra hne
    have hsymm : Std.Symm (Function.onFun List.Disjoint Group.indexes) := ⟨fun _ _ hd => hd.symm⟩
    have hd := hnd.2.forall hg hg' hne
    exact hd (List.mem_of_getElem? hi) (List.mem_of_getElem? hi')
  subst heq
  have hn : g.indexes.Nodup := hnd.1 g hg
  have hl : j < g.indexes.length := (List.getElem?_eq_some_iff.mp hi).1
  exact ⟨rfl, (List.getElem?_inj hl hn).mp (hi.trans hi'.symm)⟩

theorem answered_unique {i : Nat} {r r' : Reply} (h : Answered svc env q i r)
    (h' : Answered svc env q i r') : r = r' := by
  obtain ⟨groups, hp, g, hg, j, hj, ha⟩ := h
  obtain ⟨groups', hp', g', hg', j', hj', ha'⟩ := h'
  obtain rfl : groups = groups' := Except.ok.inj (hp.symm.trans hp')
  obtain ⟨rfl, rfl⟩ := place_unique hp hg hg' hj hj'
  exact Option.some.inj (ha.symm.trans ha')

theorem find?_of_nodup_fst {l : List (Nat × Reply)} (hn : (l.map Prod.fst).Nodup) {i : Nat}
    {r : Reply} (h : (i, r) ∈ l) : l.find? (fun s => s.1 = i) = some (i, r) := by
  cases hf : l.find? (fun s => s.1 = i) with
  | none =>
    have hh := List.find?_eq_none.mp hf (i, r) h
    simp at hh
  | some s =>
    have hi : s.1 = i := by simpa using List.find?_some hf
    exact congrArg some (List.inj_on_of_nodup_map hn (List.mem_of_find?_eq_some hf) h hi)

def Schedule.first (n : Nat) : Schedule := ⟨fun gs => gs.rotate n, fun gs => gs.rotate_perm n, 0⟩

theorem Schedule.first_order {groups : List Group} {n : Nat} (hn : n < groups.length) :
    ∃ tail, (Schedule.first n).order groups = groups[n] :: tail := by
  have hrotate : groups.rotate n = groups[n] :: (groups.drop (n + 1) ++ groups.take n) := by
    rw [List.rotate_eq_drop_append_take hn.le, List.drop_eq_getElem_cons hn]
    rfl
  exact ⟨_, hrotate⟩

theorem exists_schedule_delivers {groups : List Group} (hp : prepare svc env q = .ok groups)
    (hq : q.entries ≠ []) {g : Group} (hg : g ∈ groups) {i : Nat} {r : Reply}
    (hs : (i, r) ∈ (g.run svc env).sends) :
    ∃ sched, callerResult (executeInMemory svc env q sched) i = r := by
  obtain ⟨n, hn, rfl⟩ := List.mem_iff_getElem.mp hg
  refine ⟨Schedule.first n, ?_⟩
  obtain ⟨tail, htail⟩ := Schedule.first_order hn
  obtain ⟨rest, hrest⟩ : ∃ rest, (executeInMemory svc env q (Schedule.first n)).sends =
      (groups[n].run svc env).sends ++ rest := by
    rw [executeInMemory_ok hq hp]
    simp only [runGroups, htail, List.map_cons, settled, List.take_succ_cons, List.flatMap_cons,
      Nat.add_right_comm _ 1]
    exact ⟨_, rfl⟩
  have hnd : ((groups[n].run svc env).sends.map Prod.fst).Nodup :=
    ((List.nodup_flatMap.mp (prepare_flatMap_indexes_nodup hp)).1 groups[n] hg).sublist
      (Group.run_sends_sublist svc env groups[n])
  have hf := find?_of_nodup_fst hnd hs
  simp [callerResult, hrest, List.find?_append, hf]

/-- A batch without `skip_result` is honest about replies exactly when no node answers one
of its commands with an error that the task would turn into a value, and every EXEC array that
is distributed lists the answers of the commands it is distributed to. -/
theorem honestReplies_iff (hs : svc.options.skipResult = false) :
    HonestReplies svc env q ↔
      ∀ groups, prepare svc env q = .ok groups → ∀ g ∈ groups, g.ErrorFree svc env := by
  constructor
  · intro hh groups hp g hg
    by_contra hc
    obtain ⟨j, d, v, hd, hne, hsend⟩ := Group.run_hands_out_other hs hc
    have hmem : d.index ∈ q.entries.map BatchCommandData.index :=
      (prepare_indexes_perm hp).mem_iff.mp (List.mem_map_of_mem
        (List.mem_flatMap.mpr ⟨g, hg, List.mem_of_getElem? hd⟩))
    obtain ⟨d', hd', hi⟩ := List.mem_map.mp hmem
    obtain ⟨sched, hsched⟩ :=
      exists_schedule_delivers hp (List.ne_nil_of_mem hd') hg hsend
    rw [← hi] at hsched
    obtain ⟨groups', hp', g', hg', j', hj', ha'⟩ := (hh sched d' hd').1 v hsched
    obtain rfl : groups = groups' := Except.ok.inj (hp.symm.trans hp')
    obtain ⟨rfl, rfl⟩ := place_unique hp hg hg' (by rw [hd, Option.map_some, hi]) hj'
    exact hne ha'
  · intro hc sched d hd
    have hok : ∀ v, callerResult (executeInMemory svc env q sched) d.index = .ok v →
        Answered svc env q d.index (.ok v) := by
      intro v hv
      have hm := callerResult_ok hv
      cases hp : prepare svc env q with
      | error e =>
        rw [executeInMemory_sends_nil (by simp [hp])] at hm
        cases hm
      | ok groups =>
        rw [executeInMemory_ok (List.ne_nil_of_mem hd) hp] at hm
        obtain ⟨g, hg, hsend⟩ := mem_runGroups_sends hm
        obtain ⟨j, d', hd', hi, ha⟩ := Group.run_ok_answer hs (hc groups hp g hg) hsend
        exact ⟨groups, hp, g, hg, j, by simp [hd', hi], ha⟩
    refine ⟨hok, fun e he => ?_⟩
    cases hr : callerResult (executeInMemory svc env q sched) d.index with
    | error e' => exact ⟨e', rfl⟩
    | ok v => cases answered_unique he (hok v hr)

end Delivery

/-! A batch of one HINCRBY on a single node, for either answer of Redis. -/

def localServer : Server := ⟨"127.0.0.1", 6379⟩

def plainService : BatchService := ⟨BatchOptions.defaults, 4, false, .master⟩

def atomicService : BatchService :=
  ⟨{ BatchOptions.defaults with executionMode := .inMemoryAtomic }, 4, false, .master⟩

def oneNodeEnvironment (reply : Reply) : Environment fun _ => "" where
  keyslot _ := 12182
  topologyAt _ := ⟨none, [localServer]⟩
  iterate gs := gs
  iterate_perm gs := .refl gs
  caches := .empty
  loadReply _ := .ok .null
  enqueueError _ := none
  reply _ _ := reply
  debug _ := ""

def incrementQueue : Queue := ⟨[⟨.hIncrBy (utf8Bytes "foo") (utf8Bytes "hits") 1, 0⟩], by decide⟩

def incrementGroup : Group := ⟨⟨localServer, none⟩, ⟨incrementQueue.entries, false⟩⟩

theorem prepare_increment (reply : Reply) :
    prepare plainService (oneNodeEnvironment reply) incrementQueue =
      .ok [incrementGroup] := rfl

theorem honestReplies_increment :
    HonestReplies plainService (oneNodeEnvironment (.ok (.integer 1))) incrementQueue := by
  refine (honestReplies_iff rfl).mpr fun groups hp g hg => ?_
  obtain rfl : [incrementGroup] = groups := Except.ok.inj ((prepare_increment _).symm.trans hp)
  obtain rfl : g = incrementGroup := by simpa using hg
  exact fun _ j _ => ⟨.integer 1, rfl⟩

def wrongType : Error := ⟨"WRONGTYPE Operation against a key holding the wrong kind of value"⟩

/-- A refused HINCRBY is reported to its caller as `Ok(Null)`. -/
theorem increment_error_swallowed :
    Answered plainService (oneNodeEnvironment (.error wrongType)) incrementQueue 0
      (.error wrongType) ∧
    callerResult (executeInMemory plainService (oneNodeEnvironment (.error wrongType))
      incrementQueue (.first 0)) 0 = .ok .null ∧
    ¬ HonestReplies plainService (oneNodeEnvironment (.error wrongType))
      incrementQueue := by
  have hans : Answered plainService (oneNodeEnvironment (.error wrongType)) incrementQueue 0
      (.error wrongType) := ⟨[incrementGroup], rfl, incrementGroup, by simp, 0, rfl, rfl⟩
  have hnull : callerResult (executeInMemory plainService
      (oneNodeEnvironment (.error wrongType)) incrementQueue (.first 0)) 0 = .ok .null := rfl
  refine ⟨hans, hnull, fun hh => ?_⟩
  obtain ⟨e, he⟩ := (hh (.first 0) _ (List.mem_singleton.mpr rfl)).2 wrongType hans
  exact absurd (hnull.symm.trans he) (by simp)

end Redisson
