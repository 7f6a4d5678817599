import Redisson.InMemoryBatch

/-! An in-memory execution in which nothing is assumed of `fred`: a task may be refused a
call, may panic, and `try_all` may return results of any number and kind. -/

namespace Redisson

/-- What becomes of the task of a node group before it distributes any reply. -/
inductive TaskFate
  | refused (e : Error)
  | panicked (text : String)
  | replied (results : List Reply)

def TaskFate.isReplied : TaskFate → Bool
  | replied _ => true
  | _ => false

def TaskOutcome.indexed (t : TaskOutcome) : List (Nat × Value) :=
  match t.result with
  | .ok (_, idx) => idx
  | .error _ => []

namespace Group

section Fate

variable (svc : BatchService) (debug : Value → String)

def runFate (g : Group) : TaskFate → TaskOutcome
  | .refused e => ⟨[], .error e⟩
  | .panicked text => ⟨[], .error ⟨"batch task panicked: " ++ text⟩⟩
  | .replied results => g.finish svc debug results

/-- The EXEC results that `distribute_exec_results` rejects. -/
def Malformed : Option Reply → Prop
  | none => True
  | some (.ok (.array _)) | some (.ok .null) | some (.error _) => False
  | some (.ok _) => True

def Fails : TaskFate → Prop
  | .refused _ | .panicked _ => True
  | .replied results => svc.options.skipResult = false ∧ svc.options.isAtomic = true ∧
      Malformed (popWait svc results).getLast?

end Fate

section Outcome

variable {svc : BatchService} {debug : Value → String} {g : Group} {results : List Reply}

theorem distributeExecResults_error_iff {exec : Option Reply} {txs : List Nat} :
    (∃ e, (distributeExecResults debug exec txs).2 = .error e) ↔ Malformed exec := by
  match exec with
  | none => simp [distributeExecResults, Malformed]
  | some (.error e) => simp [distributeExecResults, Malformed]
  | some (.ok v) => cases v <;> simp [distributeExecResults, Malformed]

theorem distributeExecResults_malformed {exec : Option Reply} {txs : List Nat}
    (h : Malformed exec) : (distributeExecResults debug exec txs).1 = [] := by
  match exec with
  | none => rfl
  | some (.ok v) => cases v <;> simp_all [distributeExecResults, Malformed]

theorem runFate_failed_iff {fate : TaskFate} :
    (g.runFate svc debug fate).failed = true ↔ Fails svc fate := by
  cases fate with
  | refused e | panicked text => simp [runFate, TaskOutcome.failed, Fails]
  | replied results =>
    cases hs : svc.options.skipResult with
    | true =>
      obtain ⟨-, s, hr⟩ := @finish_skip svc debug g results hs
      simp [runFate, TaskOutcome.failed, hr, Fails, hs]
    | false =>
      cases ha : svc.options.isAtomic with
      | false =>
        obtain ⟨-, s, hr⟩ := @finish_plain svc debug g results hs ha
        simp [runFate, TaskOutcome.failed, hr, Fails, ha]
      | true =>
        obtain ⟨-, hr⟩ := @finish_atomic svc debug g results hs ha
        simp only [Fails, hs, ha, true_and,
          ← @distributeExecResults_error_iff debug _ g.indexes, runFate, TaskOutcome.failed]
        cases hd : (distributeExecResults debug (popWait svc results).getLast? g.indexes).2 with
        | error e => simp_all
        | ok =>
          rw [hd] at hr
          obtain ⟨s, hr⟩ := hr
          simp [hr]

theorem runFate_sends_of_fails {fate : TaskFate} (h : Fails svc fate) :
    (g.runFate svc debug fate).sends = [] := by
  cases fate with
  | refused e | panicked text => rfl
  | replied results =>
    obtain ⟨hs, ha, hm⟩ := h
    rw [runFate, (finish_atomic hs ha).1, distributeExecResults_malformed hm]

theorem runFate_sends_sublist {fate : TaskFate} :
    ((g.runFate svc debug fate).sends.map Prod.fst).Sublist g.indexes := by
  cases fate with
  | refused e | panicked text => simp [runFate]
  | replied results => exact finish_sends_sublist svc debug g results

end Outcome

end Group

section Execution

variable {sha1 : String → String} (svc : BatchService) (env : Environment sha1)

/-- Where a task fails, a pipeline listed here may belong to a task that was aborted before it
sent it. -/
def runFates (fate : Group → TaskFate) (groups : List Group) (sched : Schedule) : BatchRun :=
  let tasks := (sched.order groups).map fun g => g.runFate svc env.debug (fate g)
  { pipelines := ((sched.order groups).filter fun g => (fate g).isReplied).map
      fun g => (g.mse.primary, g.pipeline svc)
    sends := (settled sched.late tasks).flatMap TaskOutcome.sends
    result := (collect tasks 0 []).map fun (syncedSlaves, allIndexed) =>
      ⟨(allIndexed.mergeSort fun a b => a.1 ≤ b.1).map Prod.snd, syncedSlaves⟩ }

def executeFates (fate : Group → TaskFate) (q : Queue) (sched : Schedule) : BatchRun :=
  if q.entries.isEmpty then ⟨[], [], .ok ⟨[], 0⟩⟩
  else
    match prepare svc env q with
    | .error e => ⟨[], [], .error e⟩
    | .ok groups => runFates svc env fate groups sched

/-- The fate of the tasks when `fred` answers every call of a pipeline. -/
def Environment.fate (g : Group) : TaskFate :=
  match env.enqueueError g.mse.primary with
  | some e => .refused e
  | none => .replied (g.tryAll svc env)

theorem Group.run_eq_runFate (g : Group) :
    g.run svc env = g.runFate svc env.debug (env.fate svc g) := by
  cases he : env.enqueueError g.mse.primary <;> simp [run, Environment.fate, runFate, he]

theorem runGroups_eq_runFates (groups : List Group) (sched : Schedule) :
    runGroups svc env groups sched = runFates svc env (env.fate svc) groups sched := by
  have hreplied : ∀ g : Group,
      (env.fate svc g).isReplied = (env.enqueueError g.mse.primary).isNone := by
    intro g
    cases he : env.enqueueError g.mse.primary <;> simp [Environment.fate, TaskFate.isReplied, he]
  have hrun : Group.run svc env = fun g => g.runFate svc env.debug (env.fate svc g) :=
    funext fun g => g.run_eq_runFate svc env
  simp only [runGroups, runFates, hreplied, hrun]

theorem executeInMemory_eq_executeFates (q : Queue) (sched : Schedule) :
    executeInMemory svc env q sched = executeFates svc env (env.fate svc) q sched := by
  unfold executeInMemory executeFates
  split
  · rfl
  · cases prepare svc env q with
    | error e => rfl
    | ok groups => exact runGroups_eq_runFates svc env groups sched

end Execution

section Collection

variable {tasks : List TaskOutcome}

theorem collect_ok {syncedSlaves : Int} {allIndexed : List (Nat × Value)}
    (h : ∀ t ∈ tasks, t.failed = false) :
    ∃ s, collect tasks syncedSlaves allIndexed =
      .ok (s, allIndexed ++ tasks.flatMap TaskOutcome.indexed) := by
  induction tasks generalizing syncedSlaves allIndexed with
  | nil => exact ⟨syncedSlaves, by simp [collect]⟩
  | cons t ts ih =>
    have ht := h t (by simp)
    cases hr : t.result with
    | error e => simp [TaskOutcome.failed, hr] at ht
    | ok r =>
      obtain ⟨s, idx⟩ := r
      obtain ⟨s', hs⟩ := @ih (syncedSlaves + s) (allIndexed ++ idx) fun t' ht' => h t' (by simp [ht'])
      exact ⟨s', by simp [collect, hr, hs, TaskOutcome.indexed]⟩

theorem collect_error {syncedSlaves : Int} {allIndexed : List (Nat × Value)}
    (h : ∃ t ∈ tasks, t.failed = true) :
    ∃ e, collect tasks syncedSlaves allIndexed = .error e := by
  induction tasks generalizing syncedSlaves allIndexed with
  | nil => simp at h
  | cons t ts ih =>
    cases hr : t.result with
    | error e => exact ⟨e, by simp [collect, hr]⟩
    | ok r =>
      obtain ⟨t', ht', hf⟩ := h
      have hts : t' ∈ ts := by
        rcases List.mem_cons.mp ht' with rfl | hts
        · simp [TaskOutcome.failed, hr] at hf
        · exact hts
      simpa [collect, hr] using @ih (syncedSlaves + r.1) (allIndexed ++ r.2) ⟨t', hts, hf⟩

end Collection

section Results

variable {sha1 : String → String} {svc : BatchService} {env : Environment sha1}
  {fate : Group → TaskFate} {groups : List Group} {sched : Schedule}

/-- With no failing task the responses are those of all groups, sorted by index. -/
theorem runFates_ok (h : ∀ g ∈ groups, ¬ Group.Fails svc (fate g)) :
    ∃ s, (runFates svc env fate groups sched).result = .ok
      ⟨(((sched.order groups).flatMap fun g => (g.runFate svc env.debug (fate g)).indexed).mergeSort
        fun a b => a.1 ≤ b.1).map Prod.snd, s⟩ := by
  have hall : ∀ t ∈ (sched.order groups).map fun g => g.runFate svc env.debug (fate g),
      t.failed = false := by
    intro t ht
    obtain ⟨g, hg, rfl⟩ := List.mem_map.mp ht
    have hg' := h g ((sched.order_perm groups).mem_iff.mp hg)
    rwa [← Bool.not_eq_true, Group.runFate_failed_iff]
  obtain ⟨s, hs⟩ := @collect_ok _ 0 [] hall
  exact ⟨s, by simp [runFates, hs, List.flatMap_map, Except.map]⟩

theorem runFates_error (h : ∃ g ∈ groups, Group.Fails svc (fate g)) :
    ∃ e, (runFates svc env fate groups sched).result = .error e := by
  obtain ⟨g, hg, hf⟩ := h
  have hex : ∃ t ∈ (sched.order groups).map fun g => g.runFate svc env.debug (fate g),
      t.failed = true :=
    ⟨_, List.mem_map_of_mem ((sched.order_perm groups).mem_iff.mpr hg), Group.runFate_failed_iff.mpr hf⟩
  obtain ⟨e, he⟩ := @collect_error _ 0 [] hex
  exact ⟨e, by simp [runFates, he, Except.map]⟩

end Results

end Redisson
