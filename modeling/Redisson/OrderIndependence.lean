import Redisson.ReplyMatching

/-! `execute_in_memory` leaves two orders to chance: that in which it iterates over the node map,
and that in which the spawned tasks finish. Neither shows in what it returns or hands out. -/

namespace Redisson

theorem collect_accumulated {ts : List TaskOutcome} {s n : Int} {idx idx' all : List (Nat × Value)}
    (hidx : idx.Perm idx') (h : collect ts s idx = .ok (n, all)) :
    ∃ all', collect ts s idx' = .ok (n, all') ∧ all.Perm all' := by
  induction ts generalizing s idx idx' with
  | nil =>
    cases h
    exact ⟨idx', rfl, hidx⟩
  | cons t ts ih =>
    cases hr : t.result with
    | error e => simp [collect, hr] at h
    | ok r =>
      simp only [collect, hr] at h ⊢
      exact ih (hidx.append_right r.2) h

theorem collect_values {ts : List TaskOutcome} {s n : Int} {idx all : List (Nat × Value)}
    (h : collect ts s idx = .ok (n, all)) : all = idx ++ ts.flatMap TaskOutcome.indexed := by
  induction ts generalizing s idx with
  | nil =>
    cases h
    simp
  | cons t ts ih =>
    cases hr : t.result with
    | error e => simp [collect, hr] at h
    | ok r =>
      simp only [collect, hr] at h
      simp [ih h, TaskOutcome.indexed, hr]

/-- The collector adds and appends: tasks that finish in another order leave the same sum and
the same values. -/
theorem collect_perm {ts ts' : List TaskOutcome} (hperm : ts.Perm ts') {s n : Int}
    {idx all : List (Nat × Value)} (h : collect ts s idx = .ok (n, all)) :
    ∃ all', collect ts' s idx = .ok (n, all') ∧ all.Perm all' := by
  induction hperm generalizing s idx all with
  | nil => exact ⟨all, h, .refl all⟩
  | cons t _ ih =>
    cases hr : t.result with
    | error e => simp [collect, hr] at h
    | ok r =>
      simp only [collect, hr] at h ⊢
      exact ih h
  | swap t u ts =>
    cases hu : u.result with
    | error e => simp [collect, hu] at h
    | ok v =>
      cases hr : t.result with
      | error e => simp [collect, hr, hu] at h
      | ok r =>
        have hsum : s + v.1 + r.1 = s + r.1 + v.1 := by omega
        have hvalues : (idx ++ v.2 ++ r.2).Perm (idx ++ r.2 ++ v.2) := by
          rw [List.append_assoc, List.append_assoc]
          exact List.perm_append_comm.append_left idx
        simp only [collect, hr, hu, hsum] at h ⊢
        exact collect_accumulated hvalues h
  | trans _ _ ih₁ ih₂ =>
    obtain ⟨mid, hmid, hp⟩ := ih₁ h
    obtain ⟨all', hall', hp'⟩ := ih₂ hmid
    exact ⟨all', hall', hp.trans hp'⟩

theorem Group.runFate_indexed_sublist {svc : BatchService} {debug : Value → String} {g : Group}
    {fate : TaskFate} : ((g.runFate svc debug fate).indexed.map Prod.fst).Sublist g.indexes := by
  cases fate with
  | refused e | panicked text => simp [runFate, TaskOutcome.indexed]
  | replied results =>
    cases hs : svc.options.skipResult with
    | true =>
      obtain ⟨-, s, hr⟩ := @finish_skip svc debug g results hs
      simp [runFate, TaskOutcome.indexed, hr]
    | false =>
      cases ha : svc.options.isAtomic with
      | false =>
        obtain ⟨-, s, hr⟩ := @finish_plain svc debug g results hs ha
        simp only [runFate, TaskOutcome.indexed, hr]
        exact map_fst_zip_sublist _ _
      | true =>
        obtain ⟨-, hr⟩ := @finish_atomic svc debug g results hs ha
        cases hd : (distributeExecResults debug (popWait svc results).getLast? g.indexes).2 with
        | error e =>
          rw [hd] at hr
          simp [runFate, TaskOutcome.indexed, hr]
        | ok =>
          rw [hd] at hr
          obtain ⟨s, hr⟩ := hr
          simp only [runFate, TaskOutcome.indexed, hr]
          unfold collectExecIndexed
          split
          · exact map_fst_zip_sublist _ _
          · exact List.nil_sublist _

section Orders

variable {sha1 : String → String} {svc : BatchService} {env env' : Environment sha1} {q : Queue}
  {fate : Group → TaskFate} {groups groups' : List Group} {sched sched' : Schedule}

/-- Two environments that differ in the iteration order of the node map, and in the SCRIPT LOADs
that go out in that order, at most. -/
structure SameButOrder (env env' : Environment sha1) : Prop where
  keyslot : env'.keyslot = env.keyslot
  topologyAt : env'.topologyAt = env.topologyAt
  debug : env'.debug = env.debug

theorem prepare_perm (hsame : SameButOrder env env') (hp : prepare svc env q = .ok groups)
    (hp' : prepare svc env' q = .ok groups') : groups.Perm groups' := by
  obtain ⟨nodeMap, hmap, rfl⟩ := prepare_ok hp
  obtain ⟨nodeMap', hmap', rfl⟩ := prepare_ok hp'
  rw [hsame.keyslot, hsame.topologyAt, hmap] at hmap'
  obtain rfl : nodeMap = nodeMap' := Except.ok.inj hmap'
  exact ((env.iterate_perm nodeMap).trans (env'.iterate_perm nodeMap).symm).map _

theorem runFates_ok_of_perm (hdebug : env'.debug = env.debug) (hperm : groups.Perm groups')
    (hnodup : (groups.flatMap Group.indexes).Nodup) {r : BatchResult}
    (h : (runFates svc env fate groups sched).result = .ok r) :
    (runFates svc env' fate groups' sched').result = .ok r := by
  have horder : (sched.order groups).Perm (sched'.order groups') :=
    (sched.order_perm groups).trans (hperm.trans (sched'.order_perm groups').symm)
  unfold runFates at h ⊢
  simp only [hdebug] at h ⊢
  cases hc : collect ((sched.order groups).map fun g => g.runFate svc env.debug (fate g)) 0 [] with
  | error e => simp [hc, Except.map] at h
  | ok c =>
    obtain ⟨n, all⟩ := c
    obtain ⟨all', hall', hvalues⟩ := collect_perm
      (horder.map fun g => g.runFate svc env.debug (fate g)) hc
    have hindexes : ((sched.order groups).flatMap Group.indexes).Nodup :=
      ((sched.order_perm groups).flatMap_right _).nodup_iff.mpr hnodup
    have hkeys : (all.map Prod.fst).Nodup := by
      rw [collect_values hc, List.nil_append, List.flatMap_map, List.map_flatMap]
      exact hindexes.sublist
        (List.Sublist.flatMap_right _ fun g _ => Group.runFate_indexed_sublist)
    rw [hc] at h
    rw [hall', ← h]
    simp only [Except.map, mergeSort_eq_of_perm hvalues hkeys]

theorem find?_of_perm {l l' : List (Nat × Reply)} (hperm : l.Perm l')
    (hnodup : (l.map Prod.fst).Nodup) (i : Nat) :
    l.find? (fun s => s.1 = i) = l'.find? fun s => s.1 = i := by
  have hnodup' : (l'.map Prod.fst).Nodup := (hperm.map _).nodup_iff.mp hnodup
  cases hf : l.find? fun s => s.1 = i with
  | none =>
    refine (List.find?_eq_none.mpr fun s hs => ?_).symm
    exact List.find?_eq_none.mp hf s (hperm.mem_iff.mpr hs)
  | some s =>
    have hi : s.1 = i := by simpa using List.find?_some hf
    have hmem : (i, s.2) ∈ l' := hi ▸ hperm.mem_iff.mp (List.mem_of_find?_eq_some hf)
    rw [find?_of_nodup_fst hnodup' hmem, ← hi]

/-- One execution in memory gives the same result under every iteration order and schedule; if no
task fails, it sends the same pipelines, and every caller receives the same reply. -/
theorem executeFates_order_independent (hsame : SameButOrder env env')
    (hp : prepare svc env q = .ok groups) (hp' : prepare svc env' q = .ok groups') :
    (∀ r, (executeFates svc env fate q sched).result = .ok r ↔
      (executeFates svc env' fate q sched').result = .ok r) ∧
    ((∀ g ∈ groups, ¬ Group.Fails svc (fate g)) →
      (executeFates svc env fate q sched).pipelines.Perm
        (executeFates svc env' fate q sched').pipelines ∧
      ∀ i, callerResult (executeFates svc env fate q sched) i =
        callerResult (executeFates svc env' fate q sched') i) := by
  by_cases hq : q.entries = []
  · simp [executeFates, hq]
  · have hperm := prepare_perm hsame hp hp'
    have horder : (sched.order groups).Perm (sched'.order groups') :=
      (sched.order_perm groups).trans (hperm.trans (sched'.order_perm groups').symm)
    rw [executeFates_ok hq hp, executeFates_ok hq hp']
    refine ⟨fun r => ⟨?_, ?_⟩, fun hnone => ⟨(horder.filter _).map _, fun i => ?_⟩⟩
    · exact runFates_ok_of_perm hsame.debug hperm (prepare_flatMap_indexes_nodup hp)
    · exact runFates_ok_of_perm hsame.debug.symm hperm.symm (prepare_flatMap_indexes_nodup hp')
    · have hnone' : ∀ g ∈ groups', ¬ Group.Fails svc (fate g) := fun g hg =>
        hnone g (hperm.mem_iff.mpr hg)
      have hsends : (runFates svc env fate groups sched).sends.Perm
          (runFates svc env' fate groups' sched').sends := by
        rw [runFates_sends hnone, runFates_sends hnone', hsame.debug]
        exact horder.flatMap_right _
      have hfind := find?_of_perm hsends (runFates_sends_nodup hp) i
      unfold callerResult
      rw [hfind]

end Orders

/-! The two reads on the two-node cluster, with the node map read backwards and the other task
finishing first. -/

def Environment.reversed {sha1 : String → String} (env : Environment sha1) : Environment sha1 :=
  { env with
    iterate := fun gs => (env.iterate gs).reverse
    iterate_perm := fun gs => (List.reverse_perm _).trans (env.iterate_perm gs) }

theorem executeFates_order_independent_twoReads : ∃ r,
    (executeFates clusterService portEnvironment (portEnvironment.fate clusterService) twoReads
      (.first 0)).result = .ok r ∧
    (executeFates clusterService portEnvironment.reversed (portEnvironment.fate clusterService)
      twoReads (.first 0)).result = .ok r := by
  have hp : prepare clusterService portEnvironment twoReads = .ok [upperGroup, lowerGroup] :=
    (prepare_with_reply clusterService clusterEnvironment _ twoReads).trans prepare_twoReads
  have hp' : prepare clusterService portEnvironment.reversed twoReads =
      .ok [lowerGroup, upperGroup] := by
    have hfoo : BatchCommandData.slot clusterSlot ⟨.get (utf8Bytes "foo"), 0⟩ = 12182 := by
      decide +kernel
    have hbar : BatchCommandData.slot clusterSlot ⟨.get (utf8Bytes "bar"), 1⟩ = 5061 := by
      decide +kernel
    simp [prepare, twoReads, groupEntries, Environment.reversed, portEnvironment,
      clusterEnvironment, hfoo, hbar]
    rfl
  have hsame : SameButOrder portEnvironment portEnvironment.reversed := ⟨rfl, rfl, rfl⟩
  have horders := @executeFates_order_independent _ clusterService _ _ twoReads
    (portEnvironment.fate clusterService) _ _ (.first 0) (.first 0) hsame hp hp'
  have hnone : ∀ g ∈ [upperGroup, lowerGroup],
      ¬ Group.Fails clusterService (portEnvironment.fate clusterService g) := fun g _ hf =>
    absurd hf.2.1 (by decide)
  obtain ⟨n, hfirst⟩ := @runFates_ok _ clusterService portEnvironment
    (portEnvironment.fate clusterService) [upperGroup, lowerGroup] (.first 0) hnone
  rw [← executeFates_ok (by simp [twoReads]) hp] at hfirst
  exact ⟨_, hfirst, (horders.1 _).mp hfirst⟩

end Redisson
