import Redisson.BatchPreparation

/-! The task that `execute_in_memory` spawns for one node group: the pipeline it builds
and how the results of `try_all` reach the senders. After `try_all` the task has no await
point left, so `finish` is one uninterrupted step. -/

namespace Redisson

def makeWaitCmd (slot : Slot) (syncAof : Bool) (syncLocals syncSlaves timeoutMs : Int) : Call :=
  if syncAof then
    .custom "WAITAOF" (.custom slot) [.integer syncLocals, .integer syncSlaves, .integer timeoutMs]
  else .custom "WAIT" (.custom slot) [.integer syncSlaves, .integer timeoutMs]

def extractSyncedSlaves : Option Reply → Int
  | some (.ok (.integer n)) => n
  | some (.ok (.array nums)) =>
    match (nums[1]? : Option Value) with
    | some (.integer n) => n
    | _ => 0
  | _ => 0

/-- `distribute_exec_results`: what is sent to which sender, and how the call ends. -/
def distributeExecResults (debug : Value → String) (execResult : Option Reply) (txs : List Nat) :
    List (Nat × Reply) × Except Error Unit :=
  match execResult with
  | none => ([], .error ⟨"empty pipeline result, EXEC response missing"⟩)
  | some (.ok (.array actual)) => (txs.zip (actual.map .ok), .ok ())
  | some (.ok .null) =>
    (txs.map (·, .error ⟨"EXEC returned nil: transaction aborted by WATCH"⟩), .ok ())
  | some (.ok other) => ([], .error ⟨"unexpected EXEC response format: " ++ debug other⟩)
  | some (.error e) => (txs.map (·, .error e), .ok ())

def collectExecIndexed (execResult : Option Reply) (indexes : List Nat) : List (Nat × Value) :=
  match execResult with
  | some (.ok (.array actual)) => indexes.zip actual
  | _ => []

def Reply.isQueued : Reply → Bool
  | .ok .queued => true
  | _ => false

def unwrapOrNull : Reply → Value
  | .ok v => v
  | .error _ => .null

structure Pipeline where
  replica : Bool
  calls : List Call

/-- What a finished task has sent to its senders, and what it returns to the collector. -/
structure TaskOutcome where
  sends : List (Nat × Reply)
  result : Except Error (Int × List (Nat × Value))

def TaskOutcome.failed (t : TaskOutcome) : Bool :=
  match t.result with
  | .ok _ => false
  | .error _ => true

namespace Group

def indexes (g : Group) : List Nat := g.commands.map BatchCommandData.index

section Task

variable (svc : BatchService)

def waits : Bool := 0 < svc.options.syncSlaves

def opening (g : Group) : List Call :=
  if svc.options.isAtomic then [.custom "MULTI" (.custom g.mse.slotOrZero) []] else []

def closing (g : Group) : List Call :=
  (if svc.options.isAtomic then [.custom "EXEC" (.custom g.mse.slotOrZero) []] else []) ++
  (if waits svc then
    [makeWaitCmd g.mse.slotOrZero svc.options.syncAof svc.options.syncLocals
      svc.options.syncSlaves svc.options.syncTimeout] else [])

def pipeline (g : Group) : Pipeline where
  replica := !svc.options.isAtomic && g.entry.readOnly && svc.readMode ≠ .master
  calls := g.opening svc ++ g.commands.map (fun d => RedisCommand.executeOn d.cmd) ++ g.closing svc

def finish (debug : Value → String) (g : Group) (results : List Reply) : TaskOutcome :=
  let localSynced := if waits svc then extractSyncedSlaves results.getLast? else 0
  let results := if waits svc then results.dropLast else results
  if svc.options.skipResult then
    ⟨g.indexes.map (·, .ok .null), .ok (localSynced, [])⟩
  else if svc.options.isAtomic then
    let execResult := results.getLast?
    match distributeExecResults debug execResult g.indexes with
    | (sends, .error e) => ⟨sends, .error e⟩
    | (sends, .ok ()) => ⟨sends, .ok (localSynced, collectExecIndexed execResult g.indexes)⟩
  else
    let indexed := g.indexes.zip (results.map unwrapOrNull)
    ⟨indexed.map (fun p => (p.1, .ok p.2)), .ok (localSynced, indexed)⟩

/-- The results of a pipeline without that of its WAIT. -/
def popWait (results : List Reply) : List Reply :=
  if waits svc then results.dropLast else results

end Task

section Finish

variable {svc : BatchService} {debug : Value → String} {g : Group} {results : List Reply}

theorem finish_skip (hs : svc.options.skipResult = true) :
    (g.finish svc debug results).sends = g.indexes.map (·, .ok .null) ∧
      ∃ s, (g.finish svc debug results).result = .ok (s, []) := by
  simp [finish, hs]

theorem finish_plain (hs : svc.options.skipResult = false) (ha : svc.options.isAtomic = false) :
    (g.finish svc debug results).sends =
        (g.indexes.zip ((popWait svc results).map unwrapOrNull)).map (fun p => (p.1, .ok p.2)) ∧
      ∃ s, (g.finish svc debug results).result =
        .ok (s, g.indexes.zip ((popWait svc results).map unwrapOrNull)) := by
  simp [finish, hs, ha, popWait]

theorem finish_atomic (hs : svc.options.skipResult = false) (ha : svc.options.isAtomic = true) :
    let exec := (popWait svc results).getLast?
    (g.finish svc debug results).sends = (distributeExecResults debug exec g.indexes).1 ∧
      match (distributeExecResults debug exec g.indexes).2 with
      | .ok () => ∃ s, (g.finish svc debug results).result = .ok (s, collectExecIndexed exec g.indexes)
      | .error e => (g.finish svc debug results).result = .error e := by
  simp only [finish, hs, ha, popWait, Bool.false_eq_true, if_false, if_true]
  generalize distributeExecResults debug _ g.indexes = d
  obtain ⟨sends, ends⟩ := d
  cases ends with
  | error e => exact ⟨rfl, rfl⟩
  | ok => exact ⟨rfl, _, rfl⟩

theorem map_fst_zip_sublist {α β : Type} (as : List α) (bs : List β) :
    ((as.zip bs).map Prod.fst).Sublist as := by
  induction as generalizing bs with
  | nil => simp
  | cons a as ih =>
    cases bs with
    | nil => simp
    | cons b bs => simpa using ih bs

theorem distributeExecResults_sends_sublist (debug : Value → String) (r : Option Reply)
    (txs : List Nat) : ((distributeExecResults debug r txs).1.map Prod.fst).Sublist txs := by
  match r with
  | none => simp [distributeExecResults]
  | some (.error e) => simp [distributeExecResults, Function.comp_def]
  | some (.ok v) =>
    cases v with
    | array vs => exact map_fst_zip_sublist txs _
    | null => simp [distributeExecResults, Function.comp_def]
    | _ => simp [distributeExecResults]

theorem finish_sends_sublist (svc : BatchService) (debug : Value → String) (g : Group)
    (results : List Reply) : ((g.finish svc debug results).sends.map Prod.fst).Sublist g.indexes := by
  cases hs : svc.options.skipResult with
  | true => simp [(finish_skip hs).1, Function.comp_def]
  | false =>
    cases ha : svc.options.isAtomic with
    | true =>
      rw [(finish_atomic hs ha).1]
      exact distributeExecResults_sends_sublist _ _ _
    | false =>
      rw [(finish_plain hs ha).1, List.map_map]
      exact map_fst_zip_sublist _ _

end Finish

variable {sha1 : String → String}

def tryAll (svc : BatchService) (env : Environment sha1) (g : Group) : List Reply :=
  (List.range (g.pipeline svc).calls.length).map (env.reply g.mse.primary)

def run (svc : BatchService) (env : Environment sha1) (g : Group) : TaskOutcome :=
  match env.enqueueError g.mse.primary with
  | some e => ⟨[], .error e⟩
  | none => g.finish svc env.debug (g.tryAll svc env)

/-- How many of the first `j` commands were answered QUEUED. -/
def queuedBefore (env : Environment sha1) (g : Group) (j : Nat) : Nat :=
  ((List.range j).filter fun i => Reply.isQueued (env.reply g.mse.primary (i + 1))).length

/-- The place in the EXEC array of the `j`-th command if Redis has queued it. The array has one
element for each command of the transaction, the last ones of which are those that the group has
queued; there are others before them only if its MULTI has met a transaction left open. -/
def execPlace (env : Environment sha1) (g : Group) (vs : List Value) (j : Nat) : Nat :=
  vs.length - g.queuedBefore env g.commands.length + g.queuedBefore env j

/-- What Redis answered to the `j`-th command of the group. Inside MULTI a command that Redis
has queued is answered by its element of the EXEC array; one that it has refused or executed at
once was answered there and then. -/
def answer (svc : BatchService) (env : Environment sha1) (g : Group) (j : Nat) : Option Reply :=
  match env.enqueueError g.mse.primary with
  | some _ => none
  | none =>
    if svc.options.isAtomic then
      match env.reply g.mse.primary (j + 1), env.reply g.mse.primary (g.commands.length + 1) with
      | .error e, _ => some (.error e)
      | .ok .queued, .error e => some (.error e)
      | .ok .queued, .ok (.array vs) => vs[g.execPlace env vs j]?.map .ok
      | .ok .queued, .ok _ => none
      | .ok v, _ => some (.ok v)
    else some (env.reply g.mse.primary j)

/-- The EXEC array has at position `j` what Redis answered to the `j`-th command: its queueing
was not refused, and if it was queued its place in the array is `j`, or else the two elements are
the same; if it was executed at once, it was answered the same. -/
def Lists (env : Environment sha1) (g : Group) (vs : List Value) (j : Nat) : Prop :=
  match env.reply g.mse.primary (j + 1) with
  | .error _ => False
  | .ok .queued => vs[g.execPlace env vs j]? = vs[j]?
  | .ok v => vs[j]? = some v

/-- No reply is an error where the task would hand out a value: without MULTI none at all,
with MULTI none to the queueing of a command that an EXEC array has an element for, which
moreover has to be that command's. -/
def ErrorFree (svc : BatchService) (env : Environment sha1) (g : Group) : Prop :=
  env.enqueueError g.mse.primary = none →
    if svc.options.isAtomic then
      ∀ vs, env.reply g.mse.primary (g.commands.length + 1) = .ok (.array vs) →
        ∀ j < min g.commands.length vs.length, g.Lists env vs j
    else ∀ j < g.commands.length, ∃ v, env.reply g.mse.primary j = .ok v

theorem queuedBefore_of_queued {env : Environment sha1} {g : Group} {j : Nat}
    (h : ∀ i < j, env.reply g.mse.primary (i + 1) = .ok .queued) : g.queuedBefore env j = j := by
  have hall : (List.range j).filter (fun i => Reply.isQueued (env.reply g.mse.primary (i + 1))) =
      List.range j := by
    refine List.filter_eq_self.mpr fun i hi => ?_
    rw [h i (List.mem_range.mp hi)]
    rfl
  rw [queuedBefore, hall, List.length_range]

/-- In a transaction of its own that Redis has queued every command in, the EXEC array lists
them all. -/
theorem lists_of_queued {env : Environment sha1} {g : Group} {vs : List Value}
    (h : ∀ i < g.commands.length, env.reply g.mse.primary (i + 1) = .ok .queued)
    (hlen : vs.length = g.commands.length) {j : Nat} (hj : j < g.commands.length) :
    g.Lists env vs j := by
  have hplace : g.execPlace env vs j = j := by
    rw [execPlace, queuedBefore_of_queued h,
      queuedBefore_of_queued fun i hi => h i (Nat.lt_trans hi hj), hlen, Nat.sub_self, Nat.zero_add]
  rw [Lists, h j hj, hplace]

theorem answer_of_lists {svc : BatchService} {env : Environment sha1} {g : Group}
    {vs : List Value} {j : Nat} {v : Value} (he : env.enqueueError g.mse.primary = none)
    (ha : svc.options.isAtomic = true)
    (hx : env.reply g.mse.primary (g.commands.length + 1) = .ok (.array vs))
    (hj : vs[j]? = some v) : g.Lists env vs j ↔ g.answer svc env j = some (.ok v) := by
  unfold Lists answer
  rw [he, hx, hj]
  cases hr : env.reply g.mse.primary (j + 1) with
  | error e => simp [ha]
  | ok w => cases w <;> simp [ha, eq_comm]

section Lemmas

variable (svc : BatchService) (env : Environment sha1) (g : Group)

@[simp] theorem indexes_length : g.indexes.length = g.commands.length := by simp [indexes]

theorem indexes_getElem? {g : Group} {j i : Nat} (h : g.indexes[j]? = some i) :
    ∃ d : BatchCommandData, g.commands[j]? = some d ∧ d.index = i := by
  simpa [indexes] using h

theorem pipeline_length : (g.pipeline svc).calls.length =
    g.commands.length + (if svc.options.isAtomic then 2 else 0) + (if waits svc then 1 else 0) := by
  cases ha : svc.options.isAtomic <;> cases hw : waits svc <;>
    simp [pipeline, opening, closing, ha, hw]

theorem popWait_tryAll : popWait svc (g.tryAll svc env) =
    (List.range (g.commands.length + (if svc.options.isAtomic then 2 else 0))).map
      (env.reply g.mse.primary) := by
  cases hw : waits svc <;> simp [popWait, tryAll, pipeline_length, hw, List.range_succ]

end Lemmas

section Outcome

variable {svc : BatchService} {env : Environment sha1} {g : Group}

theorem run_plain (he : env.enqueueError g.mse.primary = none)
    (hs : svc.options.skipResult = false) (ha : svc.options.isAtomic = false) :
    (g.run svc env).sends = (g.indexes.zip ((List.range g.commands.length).map
      (fun j => unwrapOrNull (env.reply g.mse.primary j)))).map (fun p => (p.1, .ok p.2)) := by
  simp only [run, he]
  rw [(finish_plain hs ha).1, popWait_tryAll]
  simp [ha, Function.comp_def]

theorem run_atomic (he : env.enqueueError g.mse.primary = none)
    (hs : svc.options.skipResult = false) (ha : svc.options.isAtomic = true) :
    (g.run svc env).sends = (distributeExecResults env.debug
      (some (env.reply g.mse.primary (g.commands.length + 1))) g.indexes).1 := by
  simp only [run, he]
  rw [(finish_atomic hs ha).1, popWait_tryAll]
  simp [ha, List.range_succ]

theorem run_enqueueError {e : Error} (he : env.enqueueError g.mse.primary = some e) :
    (g.run svc env).sends = [] := by simp [run, he]

theorem mem_indexes_zip {β : Type} {rs : List β} {i : Nat} {r : β} :
    (i, r) ∈ g.indexes.zip rs ↔
      ∃ j : Nat, ∃ d : BatchCommandData, g.commands[j]? = some d ∧ d.index = i ∧ rs[j]? = some r := by
  simp only [List.mem_iff_getElem?, List.getElem?_zip_eq_some]
  constructor
  · rintro ⟨j, hi, hr⟩
    obtain ⟨d, hd, hdi⟩ := indexes_getElem? hi
    exact ⟨j, d, hd, hdi, hr⟩
  · rintro ⟨j, d, hd, rfl, hr⟩
    exact ⟨j, by simp [indexes, hd], hr⟩

theorem run_ok_answer (hs : svc.options.skipResult = false) (hc : g.ErrorFree svc env)
    {i : Nat} {v : Value} (h : (i, .ok v) ∈ (g.run svc env).sends) :
    ∃ j : Nat, ∃ d : BatchCommandData, g.commands[j]? = some d ∧ d.index = i ∧
      g.answer svc env j = some (.ok v) := by
  cases he : env.enqueueError g.mse.primary with
  | some e => simp [run_enqueueError he] at h
  | none =>
    have hc' := hc he
    cases ha : svc.options.isAtomic with
    | false =>
      rw [run_plain he hs ha, List.mem_map] at h
      obtain ⟨⟨i', v'⟩, hm, heq⟩ := h
      obtain ⟨rfl, hv⟩ : i' = i ∧ v' = v := by simpa using heq
      obtain ⟨j, d, hd, hi, hr⟩ := mem_indexes_zip.mp hm
      have hj : j < g.commands.length := (List.getElem?_eq_some_iff.mp hd).1
      simp only [ha, Bool.false_eq_true, if_false] at hc'
      obtain ⟨w, hw⟩ := hc' j hj
      have hv' : w = v' := by simpa [hj, hw, unwrapOrNull] using hr
      exact ⟨j, d, hd, hi, by simp [answer, he, ha, hw, hv', hv]⟩
    | true =>
      rw [run_atomic he hs ha] at h
      cases hx : env.reply g.mse.primary (g.commands.length + 1) with
      | error e => simp [hx, distributeExecResults] at h
      | ok x =>
        cases x with
        | array vs =>
          simp only [hx, distributeExecResults] at h
          obtain ⟨j, d, hd, hi, hr⟩ := mem_indexes_zip.mp h
          have hj : j < g.commands.length := (List.getElem?_eq_some_iff.mp hd).1
          have hvs : vs[j]? = some v := by
            rw [List.getElem?_map, Option.map_eq_some_iff] at hr
            obtain ⟨w, hw, he⟩ := hr
            rw [hw, Except.ok.inj he]
          have hjv : j < vs.length := (List.getElem?_eq_some_iff.mp hvs).1
          simp only [ha, if_true] at hc'
          exact ⟨j, d, hd, hi, (answer_of_lists he ha hx hvs).mp (hc' vs hx j (by omega))⟩
        | null => simp [hx, distributeExecResults] at h
        | _ => simp [hx, distributeExecResults] at h

/-- Where a group is not error free, some command is handed a value that is not its answer. -/
theorem run_hands_out_other (hs : svc.options.skipResult = false) (hc : ¬ g.ErrorFree svc env) :
    ∃ j : Nat, ∃ d : BatchCommandData, ∃ v, g.commands[j]? = some d ∧
      g.answer svc env j ≠ some (.ok v) ∧ (d.index, .ok v) ∈ (g.run svc env).sends := by
  simp only [ErrorFree, Classical.not_imp] at hc
  obtain ⟨he, hc⟩ := hc
  cases ha : svc.options.isAtomic with
  | false =>
    simp only [ha, Bool.false_eq_true, if_false, not_forall] at hc
    obtain ⟨j, hj, hn⟩ := hc
    cases hr : env.reply g.mse.primary j with
    | ok v => exact absurd ⟨v, hr⟩ hn
    | error e =>
      refine ⟨j, g.commands[j], .null, List.getElem?_eq_getElem hj,
        by simp [answer, he, ha, hr], ?_⟩
      rw [run_plain he hs ha]
      refine List.mem_map.mpr ⟨(g.commands[j].index, .null), ?_, rfl⟩
      exact mem_indexes_zip.mpr ⟨j, g.commands[j], List.getElem?_eq_getElem hj, rfl,
        by simp [hj, hr, unwrapOrNull]⟩
  | true =>
    simp only [ha, if_true, not_forall] at hc
    obtain ⟨vs, hx, j, hj, hn⟩ := hc
    have hjg : j < g.commands.length := by omega
    have hjv : j < vs.length := by omega
    have hv : vs[j]? = some vs[j] := List.getElem?_eq_getElem hjv
    refine ⟨j, g.commands[j], vs[j], List.getElem?_eq_getElem hjg,
      fun hans => hn ((answer_of_lists he ha hx hv).mpr hans), ?_⟩
    rw [run_atomic he hs ha]
    simp only [hx, distributeExecResults]
    exact mem_indexes_zip.mpr ⟨j, g.commands[j], List.getElem?_eq_getElem hjg, rfl, by simp [hjv]⟩

theorem run_sends_sublist (svc : BatchService) (env : Environment sha1) (g : Group) :
    ((g.run svc env).sends.map Prod.fst).Sublist g.indexes := by
  cases he : env.enqueueError g.mse.primary with
  | some e => simp [run_enqueueError he]
  | none => simpa only [run, he] using finish_sends_sublist svc env.debug g _

end Outcome

end Group

end Redisson
