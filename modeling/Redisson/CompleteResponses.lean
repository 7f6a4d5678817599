import Redisson.BatchExecution
import Redisson.NodeIsolation
import Redisson.OpenTransactions

/-! When the `Ok` of `execute_async` stands for a complete `BatchResult`. An EXEC that is
answered with nil, with an error or with too short an array is reported to the senders, if
at all, while the batch as a whole succeeds. -/

namespace Redisson

variable {sha1 : String → String}

section Completeness

variable (svc : BatchService) (x : Execution sha1)

def OkMeansComplete : Prop :=
  ∀ r, executeAsync svc x = .ok r → r.responses.length = (x.queued svc).length

/-- A node whose results cover all commands of its group: in a transaction the EXEC array,
otherwise what `try_all` returned. -/
def Group.AnswersAll (g : Group) : TaskFate → Prop
  | .refused _ | .panicked _ => False
  | .replied results =>
    if svc.options.isAtomic then
      ∃ vs, (popWait svc results).getLast? = some (.ok (.array vs)) ∧ g.commands.length ≤ vs.length
    else g.commands.length ≤ (popWait svc results).length

/-- An EXEC reply that either covers the `n` queued commands or fails the execution. -/
def CoversOrFails (n : Nat) : Reply → Prop
  | .ok (.array vs) => n ≤ vs.length
  | .ok .null | .error _ => n = 0
  | .ok _ => True

def CompleteWhen : Prop :=
  match svc.options.executionMode with
  | .redisReadAtomic | .redisWriteAtomic =>
    x.timesOut = none → CoversOrFails x.redisBased.entries.length (x.pool.reply x.redisBased.picks)
  | .inMemory | .inMemoryAtomic => ∀ groups, prepare svc x.env x.queue = .ok groups →
    (∃ g ∈ groups, Group.Fails svc (x.fate g)) ∨ ∀ g ∈ groups, g.AnswersAll svc (x.fate g)

end Completeness

section Lengths

variable {α β γ : Type} {l : List α} {f : α → List β} {h : α → List γ}

theorem length_flatMap_le (hle : ∀ a ∈ l, (f a).length ≤ (h a).length) :
    (l.flatMap f).length ≤ (l.flatMap h).length := by
  induction l with
  | nil => exact le_rfl
  | cons a l ih =>
    have ha := hle a (by simp)
    have hl := ih fun b hb => hle b (by simp [hb])
    simp only [List.flatMap_cons, List.length_append]
    omega

theorem length_flatMap_eq_iff (hle : ∀ a ∈ l, (f a).length ≤ (h a).length) :
    (l.flatMap f).length = (l.flatMap h).length ↔ ∀ a ∈ l, (f a).length = (h a).length := by
  induction l with
  | nil => simp
  | cons a l ih =>
    have ha := hle a (by simp)
    have htail : ∀ b ∈ l, (f b).length ≤ (h b).length := fun b hb => hle b (by simp [hb])
    have hl := length_flatMap_le htail
    simp only [List.flatMap_cons, List.length_append, List.forall_mem_cons, ← ih htail]
    omega

end Lengths

section InMemory

variable {svc : BatchService} {debug : Value → String} {g : Group} {fate : TaskFate}

theorem Group.indexed_length (hs : svc.options.skipResult = false) (hg : g.commands ≠ [])
    (hf : ¬ Group.Fails svc fate) :
    (g.runFate svc debug fate).indexed.length ≤ g.commands.length ∧
      ((g.runFate svc debug fate).indexed.length = g.commands.length ↔ g.AnswersAll svc fate) := by
  have hpos : 0 < g.commands.length := List.length_pos_iff.mpr hg
  cases fate with
  | refused e | panicked text => exact absurd trivial hf
  | replied results =>
    cases ha : svc.options.isAtomic with
    | false =>
      obtain ⟨-, s, hr⟩ := @Group.finish_plain svc debug g results hs ha
      simp only [Group.runFate, TaskOutcome.indexed, hr, Group.AnswersAll, ha, List.length_zip,
        Group.indexes_length, List.length_map, Bool.false_eq_true, if_false]
      omega
    | true =>
      obtain ⟨-, hr⟩ := @Group.finish_atomic svc debug g results hs ha
      have hm : ¬ Group.Malformed (Group.popWait svc results).getLast? := fun hm => hf ⟨hs, ha, hm⟩
      simp only [Group.runFate, TaskOutcome.indexed, Group.AnswersAll, ha, if_true]
      cases hx : (Group.popWait svc results).getLast? with
      | none => exact absurd (show Group.Malformed _ by rw [hx]; trivial) hm
      | some exec =>
        cases exec with
        | error e =>
          obtain ⟨s, hr⟩ : ∃ s, (g.finish svc debug results).result = .ok (s, []) := by
            simpa [hx, distributeExecResults, collectExecIndexed] using hr
          simp [hr, hpos.ne]
        | ok v =>
          cases v with
          | array vs =>
            obtain ⟨s, hr⟩ : ∃ s, (g.finish svc debug results).result = .ok (s, g.indexes.zip vs) := by
              simpa [hx, distributeExecResults, collectExecIndexed] using hr
            simp only [hr, List.length_zip, Group.indexes_length, Option.some.injEq, Except.ok.injEq,
              Value.array.injEq, exists_eq_left']
            omega
          | null =>
            obtain ⟨s, hr⟩ : ∃ s, (g.finish svc debug results).result = .ok (s, []) := by
              simpa [hx, distributeExecResults, collectExecIndexed] using hr
            simp [hr, hpos.ne]
          | _ => exact absurd (show Group.Malformed _ by rw [hx]; trivial) hm

variable {env : Environment sha1} {fate : Group → TaskFate} {q : Queue} {sched : Schedule}

theorem executeFates_complete_iff (hs : svc.options.skipResult = false) :
    (∀ r, (executeFates svc env fate q sched).result = .ok r →
        r.responses.length = (q.entries.map BatchCommandData.index).length) ↔
      ∀ groups, prepare svc env q = .ok groups →
        (∃ g ∈ groups, Group.Fails svc (fate g)) ∨ ∀ g ∈ groups, g.AnswersAll svc (fate g) := by
  by_cases hq : q.entries = []
  · have hempty : (executeFates svc env fate q sched).result = .ok ⟨[], 0⟩ := by
      simp [executeFates, hq]
    refine iff_of_true (fun r hr => ?_) fun groups hp => .inr fun g hg => ?_
    · obtain rfl := Except.ok.inj (hempty.symm.trans hr)
      simp [hq]
    · exact absurd hq (prepare_queue_ne_nil hp hg)
  cases hp : prepare svc env q with
  | error e => simp [executeFates, hq, hp]
  | ok groups =>
    rw [executeFates_ok hq hp]
    simp only [Except.ok.injEq, forall_eq']
    by_cases hf : ∃ g ∈ groups, Group.Fails svc (fate g)
    · obtain ⟨e, he⟩ := @runFates_error _ svc env fate groups sched hf
      simp [he, hf]
    have hnone : ∀ g ∈ groups, ¬ Group.Fails svc (fate g) := fun g hg hg' => hf ⟨g, hg, hg'⟩
    obtain ⟨s, hr⟩ := @runFates_ok _ svc env fate groups sched hnone
    have hgroups : ∀ g ∈ sched.order groups, g ∈ groups := fun g =>
      (sched.order_perm groups).mem_iff.mp
    have hlen := fun g hg => @Group.indexed_length svc env.debug _ _ hs
      (prepare_commands_ne_nil hp g (hgroups g hg)) (hnone g (hgroups g hg))
    have htotal : ((sched.order groups).flatMap Group.commands).length = q.entries.length := by
      rw [((sched.order_perm groups).flatMap_right _).length_eq, (prepare_commands_perm hp).length_eq,
        List.length_map]
    simp only [hr, Except.ok.injEq, forall_eq', List.length_map, List.length_mergeSort, hf, false_or,
      ← htotal]
    rw [length_flatMap_eq_iff fun g hg => (hlen g hg).1]
    constructor
    · intro h g hg
      have hg' := (sched.order_perm groups).mem_iff.mpr hg
      exact (hlen g hg').2.mp (h g hg')
    · intro h g hg
      exact (hlen g hg).2.mpr (h g (hgroups g hg))

end InMemory

section RedisBased

variable {svc : BatchService} {env : PoolEnvironment} {timeout : String}

theorem executeRedisBasedQueue_complete_iff {timesOut : Option AwaitPoint} {s : RedisBased}
    (hs : svc.options.skipResult = false) :
    (∀ r, (executeRedisBasedQueue svc env timeout timesOut s).result = .ok r →
        r.responses.length = s.entries.length) ↔
      (timesOut = none → CoversOrFails s.entries.length (env.reply s.picks)) := by
  cases timesOut with
  | some point => simp [executeRedisBasedQueue]
  | none =>
    simp only [executeRedisBasedQueue, executeInner, hs, Bool.false_eq_true, if_false, true_implies]
    by_cases he : s.entries = []
    · simp only [he, List.isEmpty_nil, if_true, Except.ok.injEq, forall_eq', List.length_nil, true_iff]
      cases env.reply s.picks with
      | error e => rfl
      | ok v => cases v <;> simp [CoversOrFails]
    · have hpos : s.entries.length ≠ 0 := by simpa using he
      have hempty : s.entries.isEmpty = false := by simpa using he
      simp only [hempty, Bool.false_eq_true, if_false]
      cases env.reply s.picks with
      | error e => simp [CoversOrFails, hpos.symm, he]
      | ok v =>
        cases v with
        | array vs => simp [CoversOrFails]
        | null => simp [CoversOrFails, hpos.symm, he]
        | _ => simp [CoversOrFails]

end RedisBased

/-- An execution that keeps results is complete whenever it succeeds exactly when the
replies of each transaction or pipeline cover its commands, or some of them fail the whole. -/
theorem okMeansComplete_iff {svc : BatchService} {x : Execution sha1}
    (hs : svc.options.skipResult = false) : OkMeansComplete svc x ↔ CompleteWhen svc x := by
  unfold OkMeansComplete CompleteWhen executeAsync Execution.queued
  cases svc.options.executionMode with
  | redisReadAtomic | redisWriteAtomic => exact executeRedisBasedQueue_complete_iff hs
  | inMemory | inMemoryAtomic => exact executeFates_complete_iff hs

/-! One command in a transaction on one node, for any reply to EXEC. -/

def execAnswered (reply : Reply) : Execution fun _ => "" where
  env := oneNodeEnvironment (.ok .null)
  fate _ := .replied [.ok (.string "OK"), .ok .queued, reply]
  sched := .first 0
  queue := incrementQueue
  pool := { idlePool 1 Nat.one_pos with reply := fun n => if n = 2 then reply else .ok .queued }
  redisBased := ⟨some 12182, [0], 1, 2⟩
  timeout := "3s"
  timesOut := none

theorem okMeansComplete_execAnswered :
    OkMeansComplete writeAtomicService (execAnswered (.ok (.array [.integer 1]))) ∧
    OkMeansComplete atomicService (execAnswered (.ok (.array [.integer 1]))) := by
  refine ⟨(okMeansComplete_iff rfl).mpr fun _ => Nat.le_refl 1,
    (okMeansComplete_iff rfl).mpr fun groups hp => .inr fun g hg => ?_⟩
  obtain rfl : [incrementGroup] = groups := Except.ok.inj hp
  obtain rfl : g = incrementGroup := by simpa using hg
  exact ⟨_, rfl, Nat.le_refl 1⟩

/-- An EXEC that Redis aborts, and one answered with nil, leave a success without responses. -/
theorem aborted_exec_is_ok :
    executeAsync writeAtomicService (execAnswered (.error ⟨"EXECABORT Transaction discarded"⟩)) =
      .ok ⟨[], 0⟩ ∧
    ¬ OkMeansComplete writeAtomicService (execAnswered (.error ⟨"EXECABORT Transaction discarded"⟩)) ∧
    executeAsync atomicService (execAnswered (.ok .null)) = .ok ⟨[], 0⟩ ∧
    ¬ OkMeansComplete atomicService (execAnswered (.ok .null)) := by
  have hnil : executeAsync atomicService (execAnswered (.ok .null)) = .ok ⟨[], 0⟩ := by
    have hrun : (runFates atomicService (oneNodeEnvironment (.ok .null))
        (execAnswered (.ok .null)).fate [incrementGroup] (.first 0)).result =
          .ok ⟨(([] : List (Nat × Value)).mergeSort fun a b => a.1 ≤ b.1).map Prod.snd, 0⟩ := rfl
    rw [List.mergeSort_nil] at hrun
    exact hrun
  refine ⟨rfl, fun hh => ?_, hnil, fun hh => ?_⟩
  · exact absurd (hh ⟨[], 0⟩ rfl) (by decide)
  · exact absurd (hh ⟨[], 0⟩ hnil) (by decide)

end Redisson
