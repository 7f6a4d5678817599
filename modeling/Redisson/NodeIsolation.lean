import Redisson.RoutingAgreement
import Redisson.TaskFates
import Mathlib.Data.List.Flatten

/-! What the failure of one group task does to the callers of the other groups. The loop
over `join_next` returns at the first error, and the `JoinSet` dropped with it aborts every
task that has not finished. -/

namespace Redisson

/-- What reached the sender of the command queued under `index`, `none` when it was dropped. -/
def delivered (run : BatchRun) (index : Nat) : Option Reply :=
  (run.sends.find? fun s => s.1 = index).map Prod.snd

theorem callerResult_eq_delivered (run : BatchRun) (index : Nat) :
    callerResult run index = (delivered run index).getD
      (.error ⟨"batch channel closed (execute_async not called before drop)"⟩) := by
  unfold callerResult delivered
  cases run.sends.find? fun s => s.1 = index <;> rfl

namespace Group

def TellsSenders : Option Reply → Prop
  | some (.ok (.array vs)) => vs ≠ []
  | some (.ok .null) | some (.error _) => True
  | _ => False

/-- The node has executed the pipeline, and there is something to tell a caller. -/
def Answers (svc : BatchService) : TaskFate → Prop
  | .refused _ | .panicked _ => False
  | .replied results => svc.options.skipResult = true ∨
      if svc.options.isAtomic then TellsSenders (popWait svc results).getLast?
      else popWait svc results ≠ []

theorem zip_ne_nil_iff {α β : Type} {as : List α} {bs : List β} (ha : as ≠ []) :
    as.zip bs ≠ [] ↔ bs ≠ [] := by
  cases as with
  | nil => exact absurd rfl ha
  | cons a as => cases bs <;> simp

theorem distributeExecResults_ne_nil_iff {debug : Value → String} {exec : Option Reply}
    {txs : List Nat} (h : txs ≠ []) :
    (distributeExecResults debug exec txs).1 ≠ [] ↔ TellsSenders exec := by
  match exec with
  | none => simp [distributeExecResults, TellsSenders]
  | some (.error e) => simpa [distributeExecResults, TellsSenders] using h
  | some (.ok v) =>
    cases v with
    | array vs =>
      simp only [distributeExecResults, TellsSenders, zip_ne_nil_iff h]
      simp
    | null => simpa [distributeExecResults, TellsSenders] using h
    | _ => simp [distributeExecResults, TellsSenders]

theorem runFate_sends_ne_nil_iff {svc : BatchService} {debug : Value → String} {g : Group}
    {fate : TaskFate} (h : g.commands ≠ []) :
    (g.runFate svc debug fate).sends ≠ [] ↔ Answers svc fate := by
  have hi : g.indexes ≠ [] := by simpa [indexes] using h
  cases fate with
  | refused e | panicked text => simp [runFate, Answers]
  | replied results =>
    cases hs : svc.options.skipResult with
    | true => simp [runFate, (finish_skip hs).1, Answers, hs, hi]
    | false =>
      cases ha : svc.options.isAtomic with
      | true =>
        simp only [runFate, (finish_atomic hs ha).1, Answers, hs, ha, Bool.false_eq_true, false_or,
          if_true]
        exact distributeExecResults_ne_nil_iff hi
      | false =>
        simp [runFate, (finish_plain hs ha).1, Answers, hs, ha, zip_ne_nil_iff hi, -List.zip_eq_nil_iff]

end Group

section Isolation

variable {sha1 : String → String} (svc : BatchService) (env : Environment sha1)
  (fate : Group → TaskFate) (q : Queue)

/-- Whatever the other tasks come to and in whichever order they finish, the caller of a
command whose pipeline was executed receives what the task of its own group makes of the
results. -/
def NodeIsolation : Prop :=
  ∀ sched groups, prepare svc env q = .ok groups → ∀ g ∈ groups, ∀ results,
    fate g = .replied results → ∀ s ∈ (g.finish svc env.debug results).sends,
      delivered (executeFates svc env fate q sched) s.1 = some s.2

variable {svc env fate q} {groups : List Group} {sched : Schedule}

theorem groupEntries_commands_ne_nil {topologyAt : Nat → Topology} {keyslot : Key → Slot}
    {retryAttempts now : Nat} {ds : List BatchCommandData} {out : List Group}
    (h : groupEntries topologyAt keyslot retryAttempts ds now [] = .ok out) :
    ∀ g ∈ out, g.commands ≠ [] := by
  refine @groupEntries_induction topologyAt keyslot retryAttempts
    (fun _ gs => ∀ g ∈ gs, g.commands ≠ []) ?_ ds [] now [] out (by simp) h
  intro _ gs d _ mse hgs _
  refine forall_addToNode hgs ?_ fun g _ _ _ => ?_
  · simp [Group.commands, Entry.addCommand]
  · simp [Group.commands, Entry.addCommand]

theorem prepare_commands_ne_nil (hp : prepare svc env q = .ok groups) :
    ∀ g ∈ groups, g.commands ≠ [] := by
  obtain ⟨nodeMap, hn, rfl⟩ := prepare_ok hp
  intro g hg
  obtain ⟨g', hg', rfl⟩ := List.mem_map.mp hg
  have hne := groupEntries_commands_ne_nil hn g' ((env.iterate_perm nodeMap).mem_iff.mp hg')
  simpa using hne

theorem prepare_queue_ne_nil (hp : prepare svc env q = .ok groups) {g : Group} (hg : g ∈ groups) :
    q.entries ≠ [] := by
  have hperm := prepare_commands_perm hp
  intro hq
  rw [hq, List.map_nil, List.perm_nil, List.flatMap_eq_nil_iff] at hperm
  exact prepare_commands_ne_nil hp g hg (hperm g hg)

theorem executeFates_ok (hq : q.entries ≠ []) (hp : prepare svc env q = .ok groups) :
    executeFates svc env fate q sched = runFates svc env fate groups sched := by
  simp [executeFates, hq, hp]

theorem runFates_sends (h : ∀ g ∈ groups, ¬ Group.Fails svc (fate g)) :
    (runFates svc env fate groups sched).sends =
      (sched.order groups).flatMap fun g => (g.runFate svc env.debug (fate g)).sends := by
  have hidx : ((sched.order groups).map fun g => g.runFate svc env.debug (fate g)).findIdx
      TaskOutcome.failed = ((sched.order groups).map fun g => g.runFate svc env.debug (fate g)).length := by
    refine List.findIdx_eq_length.mpr fun t ht => ?_
    obtain ⟨g, hg, rfl⟩ := List.mem_map.mp ht
    have hg' := h g ((sched.order_perm groups).mem_iff.mp hg)
    rwa [← Bool.not_eq_true, Group.runFate_failed_iff]
  simp only [runFates, settled, hidx]
  rw [List.take_of_length_le (by omega), List.flatMap_map]

theorem runFates_sends_nodup (hp : prepare svc env q = .ok groups) :
    ((runFates svc env fate groups sched).sends.map Prod.fst).Nodup := by
  have hnodup : ((sched.order groups).flatMap Group.indexes).Nodup :=
    ((sched.order_perm groups).flatMap_right _).nodup_iff.mpr (prepare_flatMap_indexes_nodup hp)
  have hall : (((sched.order groups).flatMap fun g =>
      (g.runFate svc env.debug (fate g)).sends).map Prod.fst).Nodup := by
    rw [List.map_flatMap]
    exact hnodup.sublist (List.Sublist.flatMap_right _ fun g _ => Group.runFate_sends_sublist)
  refine hall.sublist (List.Sublist.map _ ?_)
  have hsettled := (List.take_sublist ((((sched.order groups).map fun g =>
    g.runFate svc env.debug (fate g)).findIdx TaskOutcome.failed) + 1 + sched.late)
      ((sched.order groups).map fun g => g.runFate svc env.debug (fate g))).flatMap TaskOutcome.sends
  simpa only [runFates, settled, List.flatMap_map] using hsettled

/-- A failing task that finishes first leaves the others no time. -/
theorem runFates_first_fails {g : Group} {n : Nat} (hn : groups[n]? = some g)
    (hf : Group.Fails svc (fate g)) :
    (runFates svc env fate groups (.first n)).sends = [] := by
  obtain ⟨hlt, rfl⟩ := List.getElem?_eq_some_iff.mp hn
  obtain ⟨tail, htail⟩ := Schedule.first_order hlt
  have hfailed : (groups[n].runFate svc env.debug (fate groups[n])).failed = true :=
    Group.runFate_failed_iff.mpr hf
  have hlate : (Schedule.first n).late = 0 := rfl
  simp [runFates, htail, hlate, settled, List.findIdx_cons, hfailed, Group.runFate_sends_of_fails hf]

/-- The groups of a batch are isolated from each other exactly when no task fails, or no
node has anything to tell a caller. -/
theorem nodeIsolation_iff : NodeIsolation svc env fate q ↔
    ∀ groups, prepare svc env q = .ok groups → (∃ g ∈ groups, Group.Fails svc (fate g)) →
      ∀ g ∈ groups, ¬ Group.Answers svc (fate g) := by
  constructor
  · rintro h groups hp ⟨bad, hbad, hf⟩ g hg hanswers
    have hq := prepare_queue_ne_nil hp hg
    obtain ⟨n, hn⟩ := List.mem_iff_getElem?.mp hbad
    cases hfate : fate g with
    | refused e | panicked text => simp [hfate, Group.Answers] at hanswers
    | replied results =>
      have hne := (@Group.runFate_sends_ne_nil_iff svc env.debug _ _
        (prepare_commands_ne_nil hp g hg)).mpr hanswers
      rw [hfate] at hne
      obtain ⟨s, hs⟩ := List.exists_mem_of_ne_nil _ hne
      have hd := h (.first n) groups hp g hg results hfate s hs
      rw [executeFates_ok hq hp, delivered, runFates_first_fails hn hf] at hd
      simp at hd
  · intro h sched groups hp g hg results hfate s hs
    have hq := prepare_queue_ne_nil hp hg
    have hne : (g.runFate svc env.debug (fate g)).sends ≠ [] := by
      rw [hfate]
      exact List.ne_nil_of_mem hs
    have hanswers := (Group.runFate_sends_ne_nil_iff (prepare_commands_ne_nil hp g hg)).mp hne
    have hnone : ∀ g ∈ groups, ¬ Group.Fails svc (fate g) :=
      fun g' hg' hf => h groups hp ⟨g', hg', hf⟩ g hg hanswers
    have hmem : s ∈ (runFates svc env fate groups sched).sends := by
      rw [runFates_sends hnone]
      refine List.mem_flatMap.mpr ⟨g, (sched.order_perm groups).mem_iff.mpr hg, ?_⟩
      rwa [hfate]
    rw [executeFates_ok hq hp, delivered, find?_of_nodup_fst (runFates_sends_nodup hp) hmem]
    rfl

end Isolation

/-! Two reads on the two-node cluster. -/

def twoReads : Queue :=
  ⟨[⟨.get (utf8Bytes "foo"), 0⟩, ⟨.get (utf8Bytes "bar"), 1⟩], by decide⟩

def upperGroup : Group := ⟨⟨upperNode, some 12182⟩, ⟨[⟨.get (utf8Bytes "foo"), 0⟩], true⟩⟩

def lowerGroup : Group := ⟨⟨lowerNode, some 5061⟩, ⟨[⟨.get (utf8Bytes "bar"), 1⟩], true⟩⟩

theorem prepare_twoReads : prepare clusterService clusterEnvironment twoReads =
    .ok [upperGroup, lowerGroup] := by
  have hfoo : BatchCommandData.slot clusterSlot ⟨.get (utf8Bytes "foo"), 0⟩ = 12182 := by
    decide +kernel
  have hbar : BatchCommandData.slot clusterSlot ⟨.get (utf8Bytes "bar"), 1⟩ = 5061 := by
    decide +kernel
  simp [prepare, twoReads, groupEntries, clusterEnvironment, hfoo, hbar]
  rfl

/-! A read, and a DEL without keys, which `fred` refuses as it is queued. -/

def readAndEmptyDel : Queue :=
  ⟨[⟨.get (utf8Bytes "foo"), 0⟩, ⟨.del [], 1⟩], by decide⟩

def emptyDelGroup : Group := ⟨⟨lowerNode, some 0⟩, ⟨[⟨.del [], 1⟩], false⟩⟩

theorem prepare_readAndEmptyDel : prepare clusterService clusterEnvironment readAndEmptyDel =
    .ok [upperGroup, emptyDelGroup] := by
  have hfoo : BatchCommandData.slot clusterSlot ⟨.get (utf8Bytes "foo"), 0⟩ = 12182 := by
    decide +kernel
  have hdel : BatchCommandData.slot clusterSlot ⟨.del [], 1⟩ = 0 := rfl
  simp [prepare, readAndEmptyDel, groupEntries, clusterEnvironment, hfoo, hdel]
  rfl

def emptyDelRefused (g : Group) : TaskFate :=
  if g.commands.any fun d => d.cmd.routingKey.isNone then
    .refused ⟨"Invalid Argument: At least one key is required."⟩
  else .replied [.ok (.string "1")]

/-- The node of the read answers, but the refusal of the other task is collected first: the
caller of the read finds its channel closed. -/
theorem answered_read_lost :
    delivered (executeFates clusterService clusterEnvironment emptyDelRefused readAndEmptyDel
      (.first 1)) 0 = none ∧
    ¬ NodeIsolation clusterService clusterEnvironment emptyDelRefused readAndEmptyDel := by
  have hlost : delivered (executeFates clusterService clusterEnvironment emptyDelRefused
      readAndEmptyDel (.first 1)) 0 = none := by
    have hne : readAndEmptyDel.entries ≠ [] := by simp [readAndEmptyDel]
    rw [executeFates_ok hne prepare_readAndEmptyDel]
    rfl
  refine ⟨hlost, fun hh => ?_⟩
  have hd := hh (.first 1) _ prepare_readAndEmptyDel upperGroup (by simp) _ rfl
    (0, .ok (.string "1")) (List.mem_singleton.mpr rfl)
  rw [hlost] at hd
  cases hd

end Redisson
