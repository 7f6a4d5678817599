import Redisson.AddressedMachines
import Redisson.ReplyMatching

/-! An in-memory batch beside the same commands sent one after another. The pipelines of
distinct nodes run at the same time, so that the calls reach the cluster in an order that
only keeps the order within each pipeline. -/

namespace Redisson

open AddressedMachines

variable {sha1 : String → String}

/-- The entries that `resolve_entry` finds for the commands of a queue, one after another. -/
def resolveAll (topologyAt : Nat → Topology) (keyslot : Key → Slot) (retryAttempts : Nat) :
    List BatchCommandData → Nat → Except Error (List MasterSlaveEntry)
  | [], _ => .ok []
  | d :: ds, now =>
    match resolveEntry topologyAt retryAttempts (d.slot keyslot) now with
    | (.ok mse, now) => (resolveAll topologyAt keyslot retryAttempts ds now).map (mse :: ·)
    | (.error e, _) => .error e

/-- Each command of the queue as it is sent, with the primary found for it. -/
def placements (svc : BatchService) (env : Environment sha1) (q : Queue) :
    Except Error (List (Server × BatchCommandData)) :=
  (resolveAll env.topologyAt env.keyslot svc.batchRetryAttempts q.entries 0).map fun mses =>
    (mses.map MasterSlaveEntry.primary).zip (q.entries.map (·.loaded svc.useScriptCache sha1))

section Placement

/-- The commands that a node map holds for a primary. -/
def commandsAt (gs : List Group) (p : Server) : List BatchCommandData :=
  (gs.filter (·.mse.primary = p)).flatMap Group.commands

theorem commandsAt_cons_self {g : Group} {gs : List Group} :
    commandsAt (g :: gs) g.mse.primary = g.commands ++ commandsAt gs g.mse.primary := by
  simp [commandsAt]

theorem commandsAt_cons_of_ne {g : Group} {gs : List Group} {p : Server} (h : g.mse.primary ≠ p) :
    commandsAt (g :: gs) p = commandsAt gs p := by
  simp [commandsAt, h]

theorem commandsAt_eq_nil {gs : List Group} {p : Server} (h : p ∉ gs.map (·.mse.primary)) :
    commandsAt gs p = [] := by
  induction gs with
  | nil => rfl
  | cons g gs ih =>
    simp only [List.map_cons, List.mem_cons, not_or] at h
    rw [commandsAt_cons_of_ne fun he => h.1 he.symm, ih h.2]

theorem commandsAt_of_mem {gs : List Group} {g : Group} (hn : (gs.map (·.mse.primary)).Nodup)
    (hg : g ∈ gs) : commandsAt gs g.mse.primary = g.commands := by
  simp [commandsAt, filter_eq_singleton hn hg]

theorem commandsAt_addToNode {gs : List Group} {mse : MasterSlaveEntry} {d : BatchCommandData}
    {p : Server} (hn : (gs.map (·.mse.primary)).Nodup) :
    commandsAt (addToNode gs mse d) p = commandsAt gs p ++ if mse.primary = p then [d] else [] := by
  induction gs with
  | nil =>
    by_cases h : mse.primary = p <;>
      simp [addToNode, commandsAt, h, Group.commands, Entry.addCommand, Entry.new]
  | cons g gs ih =>
    obtain ⟨hg, hgs⟩ := List.nodup_cons.mp hn
    have hnone := commandsAt_eq_nil hg
    by_cases h : g.mse.primary = mse.primary
    · by_cases hp : g.mse.primary = p
      · subst hp
        have hself := @commandsAt_cons_self { g with entry := g.entry.addCommand d } gs
        simp only [addToNode, h, if_true] at hself ⊢
        rw [← h] at hself ⊢
        rw [hself, commandsAt_cons_self, hnone]
        simp [Group.commands, Entry.addCommand]
      · have hp' : mse.primary ≠ p := h ▸ hp
        simp only [addToNode, h, if_true, if_neg hp', List.append_nil]
        rw [commandsAt_cons_of_ne (g := { g with entry := g.entry.addCommand d }) hp,
          commandsAt_cons_of_ne hp]
    · by_cases hp : g.mse.primary = p
      · subst hp
        have hne : mse.primary ≠ g.mse.primary := fun he => h he.symm
        simp only [addToNode, h, if_false, commandsAt_cons_self, ih hgs, if_neg hne, List.append_nil]
      · simp only [addToNode, h, if_false, commandsAt_cons_of_ne hp, ih hgs]

variable {topologyAt : Nat → Topology} {keyslot : Key → Slot} {retryAttempts : Nat}

/-- The node map takes in the commands of the queue one by one, each under its entry. -/
theorem groupEntries_eq (ds : List BatchCommandData) (now : Nat) (gs : List Group) :
    groupEntries topologyAt keyslot retryAttempts ds now gs =
      (resolveAll topologyAt keyslot retryAttempts ds now).map fun mses =>
        (mses.zip ds).foldl (fun gs x => addToNode gs x.1 x.2) gs := by
  induction ds generalizing now gs with
  | nil => rfl
  | cons d ds ih =>
    cases hr : resolveEntry topologyAt retryAttempts (d.slot keyslot) now with
    | mk found n =>
      cases found with
      | error e => simp [groupEntries, resolveAll, hr, Except.map]
      | ok mse =>
        simp only [groupEntries, resolveAll, hr, ih]
        cases resolveAll topologyAt keyslot retryAttempts ds n with
        | error e => rfl
        | ok mses => rfl

theorem resolveAll_length {ds : List BatchCommandData} {now : Nat} {mses : List MasterSlaveEntry}
    (h : resolveAll topologyAt keyslot retryAttempts ds now = .ok mses) :
    mses.length = ds.length := by
  induction ds generalizing now mses with
  | nil =>
    obtain rfl : [] = mses := Except.ok.inj h
    rfl
  | cons d ds ih =>
    cases hr : resolveEntry topologyAt retryAttempts (d.slot keyslot) now with
    | mk found n =>
      cases found with
      | error e => simp [resolveAll, hr] at h
      | ok mse =>
        cases ht : resolveAll topologyAt keyslot retryAttempts ds n with
        | error e => simp [resolveAll, hr, ht, Except.map] at h
        | ok rest =>
          obtain rfl : mse :: rest = mses := by simpa [resolveAll, hr, ht, Except.map] using h
          simp [ih ht]

theorem commandsAt_foldl {xs : List (MasterSlaveEntry × BatchCommandData)} {gs : List Group}
    {p : Server} (hn : (gs.map (·.mse.primary)).Nodup) :
    commandsAt (xs.foldl (fun gs x => addToNode gs x.1 x.2) gs) p =
      commandsAt gs p ++ (xs.filter (·.1.primary = p)).map Prod.snd := by
  induction xs generalizing gs with
  | nil => simp
  | cons x xs ih =>
    have hn' : ((addToNode gs x.1 x.2).map (·.mse.primary)).Nodup := by
      rw [addToNode_primaries]
      split
      · exact hn
      · next hx =>
        refine List.nodup_append.mpr ⟨hn, by simp, fun a ha b hb hab => hx ?_⟩
        rwa [← List.mem_singleton.mp hb, ← hab]
    by_cases h : x.1.primary = p
    · simp [ih hn', commandsAt_addToNode hn, h]
    · simp [ih hn', commandsAt_addToNode hn, h]

variable {svc : BatchService} {env : Environment sha1} {q : Queue} {groups : List Group}

/-- The groups of a prepared batch split its commands by primary and keep their order. -/
structure SplitBy (placed : List (Server × BatchCommandData)) (groups : List Group) : Prop where
  commands : ∀ g ∈ groups, g.commands = (placed.filter (·.1 = g.mse.primary)).map Prod.snd
  covered : ∀ x ∈ placed, x.1 ∈ groups.map (·.mse.primary)
  nodup : (groups.map (·.mse.primary)).Nodup

theorem prepare_placements (hp : prepare svc env q = .ok groups) :
    ∃ placed, placements svc env q = .ok placed ∧
      placed.map Prod.snd = q.entries.map (·.loaded svc.useScriptCache sha1) ∧
      SplitBy placed groups := by
  obtain ⟨nodeMap, hmap, rfl⟩ := prepare_ok hp
  have hnodup := groupEntries_primaries_nodup hmap
  have hiter := env.iterate_perm nodeMap
  rw [groupEntries_eq] at hmap
  cases hr : resolveAll env.topologyAt env.keyslot svc.batchRetryAttempts q.entries 0 with
  | error e => simp [hr, Except.map] at hmap
  | ok mses =>
    have hlen := resolveAll_length hr
    obtain rfl : (mses.zip q.entries).foldl (fun gs x => addToNode gs x.1 x.2) [] = nodeMap := by
      simpa [hr, Except.map] using hmap
    have hat : ∀ p, commandsAt ((mses.zip q.entries).foldl (fun gs x => addToNode gs x.1 x.2) []) p =
        ((mses.zip q.entries).filter (·.1.primary = p)).map Prod.snd := fun p =>
      (@commandsAt_foldl (mses.zip q.entries) [] p (by simp)).trans (List.nil_append _)
    have hplaced : placements svc env q = .ok ((mses.zip q.entries).map fun x =>
        (x.1.primary, x.2.loaded svc.useScriptCache sha1)) := by
      rw [placements, hr, Except.map, List.zip_map]
      rfl
    refine ⟨_, hplaced, ?_, ?_, ?_, ?_⟩
    · have hsnd : (mses.zip q.entries).map Prod.snd = q.entries := List.map_snd_zip (by simp [hlen])
      rw [← congrArg (List.map _) hsnd]
      simp
    · intro g hg
      obtain ⟨g', hg', rfl⟩ := List.mem_map.mp hg
      have hcommands := commandsAt_of_mem hnodup (hiter.mem_iff.mp hg')
      rw [Group.mapCommands_commands, ← hcommands, hat, List.filter_map, List.map_map, List.map_map]
      rfl
    · intro x hx
      obtain ⟨y, hy, rfl⟩ := List.mem_map.mp hx
      by_contra hnone
      simp only [List.map_map, Function.comp_def, Group.mapCommands_mse] at hnone
      have hempty := commandsAt_eq_nil fun hm => hnone ((hiter.map _).mem_iff.mpr hm)
      rw [hat] at hempty
      have hmem : y ∈ (mses.zip q.entries).filter (·.1.primary = y.1.primary) := by simp [hy]
      simp [List.map_eq_nil_iff.mp hempty] at hmem
    · simp only [List.map_map, Function.comp_def, Group.mapCommands_mse]
      exact (hiter.map _).nodup_iff.mpr hnodup

end Placement

section Delivery

variable {σ : Type*} (node : Server → σ → Call → σ × Reply) (s : Server → σ)

def sequentialCalls (placed : List (Server × BatchCommandData)) : List (Server × Call) :=
  placed.map fun x => (x.1, RedisCommand.executeOn x.2.cmd)

/-- The replies to the commands when each is sent on its own, after the one before it was
answered. -/
def sequentialReplies (placed : List (Server × BatchCommandData)) : List Reply :=
  answers (family node) s (sequentialCalls placed)

/-- The calls of all pipelines, none of them for a replica or routed elsewhere by a slot of its
own, reach the primaries in the order `w`, which keeps that of each pipeline, and every primary is
a machine that answers them. -/
structure Delivery (env : Environment sha1) (run : BatchRun) (w : List (Server × Call)) : Prop where
  toPrimaries : ∀ x ∈ run.pipelines, x.2.replica = false
  merged : ∀ p, requestsAt p w = (run.pipelines.filter (·.1 = p)).flatMap (·.2.calls)
  replied : ∀ p (n : Nat) r, (answersAt (family node) s w p)[n]? = some r → env.reply p n = r

variable {node s} {svc : BatchService} {env : Environment sha1} {q : Queue} {sched : Schedule}
  {groups : List Group} {placed : List (Server × BatchCommandData)} {w : List (Server × Call)}

theorem runGroups_pipelines (hq : ∀ p, env.enqueueError p = none) :
    (runGroups svc env groups sched).pipelines =
      (sched.order groups).map fun g => (g.mse.primary, g.pipeline svc) := by
  simp [runGroups, hq]

theorem calls_at {gs : List Group} (hn : (gs.map (·.mse.primary)).Nodup) {g : Group} (hg : g ∈ gs) :
    ((gs.map fun g => (g.mse.primary, g.pipeline svc)).filter (·.1 = g.mse.primary)).flatMap
      (·.2.calls) = (g.pipeline svc).calls := by
  have hsingle : gs.filter ((fun x : Server × Pipeline => decide (x.1 = g.mse.primary)) ∘
      fun g => (g.mse.primary, g.pipeline svc)) = [g] := filter_eq_singleton hn hg
  rw [List.filter_map, hsingle]
  simp

/-- What reaches a primary is the pipeline of its group, or nothing. -/
theorem Delivery.requestsAt_group (h : Delivery node s env (runGroups svc env groups sched) w)
    (hq : ∀ p, env.enqueueError p = none) (hn : (groups.map (·.mse.primary)).Nodup) {g : Group}
    (hg : g ∈ groups) : requestsAt g.mse.primary w = (g.pipeline svc).calls := by
  have horder := sched.order_perm groups
  rw [h.merged, runGroups_pipelines hq]
  exact calls_at ((horder.map _).nodup_iff.mpr hn) (horder.mem_iff.mpr hg)

theorem Delivery.requestsAt_none (h : Delivery node s env (runGroups svc env groups sched) w)
    (hq : ∀ p, env.enqueueError p = none) {p : Server} (hp : p ∉ groups.map (·.mse.primary)) :
    requestsAt p w = [] := by
  rw [h.merged, runGroups_pipelines hq, List.flatMap_eq_nil_iff]
  intro x hx
  obtain ⟨hx, hxp⟩ := List.mem_filter.mp hx
  obtain ⟨g, hg, rfl⟩ := List.mem_map.mp hx
  exact absurd (List.mem_map.mpr ⟨g, (sched.order_perm groups).mem_iff.mp hg,
    of_decide_eq_true hxp⟩) hp

theorem sequentialCalls_at (p : Server) : requestsAt p (sequentialCalls placed) =
    ((placed.filter (·.1 = p)).map Prod.snd).map fun d => RedisCommand.executeOn d.cmd := by
  rw [requestsAt, sequentialCalls, List.filter_map, List.map_map, List.map_map]
  rfl

/-- The results of a pipeline, WAIT apart, are the replies to the commands of its group. -/
theorem Delivery.results (h : Delivery node s env (runGroups svc env groups sched) w)
    (hq : ∀ p, env.enqueueError p = none) (ha : svc.options.isAtomic = false)
    (hsplit : SplitBy placed groups) {g : Group} (hg : g ∈ groups) :
    (List.range g.commands.length).map (env.reply g.mse.primary) =
      answersAt (family node) s (sequentialCalls placed) g.mse.primary := by
  have hcalls : requestsAt g.mse.primary (sequentialCalls placed) =
      g.commands.map fun d => RedisCommand.executeOn d.cmd := by
    rw [sequentialCalls_at, hsplit.commands g hg]
  have hpipeline : answersAt (family node) s w g.mse.primary =
      answersAt (family node) s (sequentialCalls placed) g.mse.primary ++ answers (node g.mse.primary)
        (after (node g.mse.primary) (s g.mse.primary)
          (g.commands.map fun d => RedisCommand.executeOn d.cmd)) (g.closing svc) := by
    rw [answersAt_family, answersAt_family, hcalls, h.requestsAt_group hq hsplit.nodup hg,
      ← answers_append]
    simp [Group.pipeline, Group.opening, ha]
  have hlen : (answersAt (family node) s (sequentialCalls placed) g.mse.primary).length =
      g.commands.length := by
    rw [answersAt_family, hcalls, answers_length, List.length_map]
  refine List.ext_getElem (by simp [hlen]) fun n hn hn' => ?_
  have hreply := h.replied g.mse.primary n
    ((answersAt (family node) s (sequentialCalls placed) g.mse.primary)[n]) (by
      rw [hpipeline, List.getElem?_append_left hn', List.getElem?_eq_getElem hn'])
  simpa using hreply

/-- The sequential replies to the commands of one group, each with the index of its command. -/
theorem indexes_zip_answersAt (hsplit : SplitBy placed groups) {g : Group} (hg : g ∈ groups) :
    g.indexes.zip (answersAt (family node) s (sequentialCalls placed) g.mse.primary) =
      ((placed.zip (sequentialReplies node s placed)).filter (·.1.1 = g.mse.primary)).map
        fun x => (x.1.2.index, x.2) := by
  have hlen : placed.length ≤ (sequentialReplies node s placed).length := by
    simp [sequentialReplies, sequentialCalls]
  have hanswers : answersAt (family node) s (sequentialCalls placed) g.mse.primary =
      ((placed.zip (sequentialReplies node s placed)).filter (·.1.1 = g.mse.primary)).map
        Prod.snd := by
    simp only [answersAt, sequentialReplies]
    generalize answers (family node) s (sequentialCalls placed) = rs
    rw [sequentialCalls, List.zip_map_left, List.filter_map, List.map_map]
    rfl
  have hzip := zip_filter hlen fun x => decide (x.1 = g.mse.primary)
  rw [hanswers, Group.indexes, hsplit.commands g hg, List.map_map, List.zip_map_left, hzip]
  rfl

theorem Delivery.group_indexed (h : Delivery node s env (runGroups svc env groups sched) w)
    (hq : ∀ p, env.enqueueError p = none) (hs : svc.options.skipResult = false)
    (ha : svc.options.isAtomic = false) (hsplit : SplitBy placed groups) {g : Group}
    (hg : g ∈ groups) :
    let indexed := ((placed.zip (sequentialReplies node s placed)).filter
      (·.1.1 = g.mse.primary)).map fun x => (x.1.2.index, unwrapOrNull x.2)
    (g.runFate svc env.debug (env.fate svc g)).indexed = indexed ∧
      (g.runFate svc env.debug (env.fate svc g)).sends = indexed.map fun p => (p.1, .ok p.2) := by
  have hfate : env.fate svc g = .replied (g.tryAll svc env) := by simp [Environment.fate, hq]
  have hresults : Group.popWait svc (g.tryAll svc env) =
      answersAt (family node) s (sequentialCalls placed) g.mse.primary := by
    rw [Group.popWait_tryAll, ← h.results hq ha hsplit hg]
    simp [ha]
  have hzip : g.indexes.zip ((Group.popWait svc (g.tryAll svc env)).map unwrapOrNull) =
      ((placed.zip (sequentialReplies node s placed)).filter (·.1.1 = g.mse.primary)).map
        fun x => (x.1.2.index, unwrapOrNull x.2) := by
    rw [hresults, List.zip_map_right, indexes_zip_answersAt hsplit hg, List.map_map]
    rfl
  obtain ⟨hsends, synced, hresult⟩ := @Group.finish_plain svc env.debug g (g.tryAll svc env) hs ha
  rw [hzip] at hsends hresult
  rw [hfate]
  exact ⟨by simp only [Group.runFate, TaskOutcome.indexed, hresult], hsends⟩

/-- The groups together hand out one value for each command of the queue. -/
theorem indexed_perm (rs : List Reply) (hsplit : SplitBy placed groups) (sched : Schedule) :
    ((sched.order groups).flatMap fun g => ((placed.zip rs).filter (·.1.1 = g.mse.primary)).map
      fun x => (x.1.2.index, unwrapOrNull x.2)).Perm
      ((placed.map fun x => x.2.index).zip (rs.map unwrapOrNull)) := by
  have horder := (sched.order_perm groups).map fun g => g.mse.primary
  have hperm := perm_flatMap_filter (f := fun x : (Server × BatchCommandData) × Reply => x.1.1)
    (l := placed.zip rs) (horder.nodup_iff.mpr hsplit.nodup) fun x hx =>
      horder.mem_iff.mpr (hsplit.covered x.1 (List.of_mem_zip hx).1)
  have hmap := hperm.map fun x => (x.1.2.index, unwrapOrNull x.2)
  rw [List.map_flatMap, List.flatMap_map] at hmap
  rwa [List.zip_map]

/-- A batch and its commands sent one after another come to the same: the values, by index,
what each caller gets, and the state of the cluster. -/
structure ActsInSequence (node : Server → σ → Call → σ × Reply) (s : Server → σ)
    (placed : List (Server × BatchCommandData)) (run : BatchRun) (w : List (Server × Call)) :
    Prop where
  responses : ∃ synced, run.result = .ok
    ⟨(((placed.map fun x => x.2.index).zip ((sequentialReplies node s placed).map
      unwrapOrNull)).mergeSort fun a b => a.1 ≤ b.1).map Prod.snd, synced⟩
  callers : ∀ (j : Nat) x r, placed[j]? = some x → (sequentialReplies node s placed)[j]? = some r →
    callerResult run x.2.index = .ok (unwrapOrNull r)
  state : after (family node) s w = after (family node) s (sequentialCalls placed)

/-- WAIT and WAITAOF tell about replicas and change no state. -/
def WaitIsPure (svc : BatchService) (node : Server → σ → Call → σ × Reply) : Prop :=
  Group.waits svc = true → ∀ p st slot,
    (node p st (makeWaitCmd slot svc.options.syncAof svc.options.syncLocals svc.options.syncSlaves
      svc.options.syncTimeout)).1 = st

theorem WaitIsPure.closing (h : WaitIsPure svc node) (ha : svc.options.isAtomic = false)
    (p : Server) (st : σ) (g : Group) : after (node p) st (g.closing svc) = st := by
  cases hw : Group.waits svc with
  | false => simp [Group.closing, ha, hw, after]
  | true => simpa [Group.closing, ha, hw, after] using h hw p st g.mse.slotOrZero

theorem Delivery.state (h : Delivery node s env (runGroups svc env groups sched) w)
    (hq : ∀ p, env.enqueueError p = none) (ha : svc.options.isAtomic = false)
    (hwait : WaitIsPure svc node) (hsplit : SplitBy placed groups) :
    after (family node) s w = after (family node) s (sequentialCalls placed) := by
  funext p
  rw [after_family, after_family, sequentialCalls_at]
  by_cases hp : p ∈ groups.map (·.mse.primary)
  · obtain ⟨g, hg, rfl⟩ := List.mem_map.mp hp
    rw [h.requestsAt_group hq hsplit.nodup hg, ← hsplit.commands g hg, Group.pipeline,
      after_append, hwait.closing ha]
    simp [Group.opening, ha]
  · have hnone : placed.filter (·.1 = p) = [] :=
      List.filter_eq_nil_iff.mpr fun x hx hxp => hp (of_decide_eq_true hxp ▸ hsplit.covered x hx)
    rw [h.requestsAt_none hq hp, hnone]
    rfl

theorem Delivery.actsInSequence (h : Delivery node s env (runGroups svc env groups sched) w)
    (hq : ∀ p, env.enqueueError p = none) (hs : svc.options.skipResult = false)
    (ha : svc.options.isAtomic = false) (hwait : WaitIsPure svc node)
    (hn : (placed.map fun x => x.2.index).Nodup) (hsplit : SplitBy placed groups) :
    ActsInSequence node s placed (runGroups svc env groups sched) w := by
  have hmem : ∀ g ∈ sched.order groups, g ∈ groups := fun g =>
    (sched.order_perm groups).mem_iff.mp
  have hnone : ∀ g ∈ groups, ¬ Group.Fails svc (env.fate svc g) := fun g _ hf => by
    simp [Environment.fate, hq, Group.Fails, ha] at hf
  have hgroup := fun g hg => h.group_indexed hq hs ha hsplit (hmem g hg)
  have hindexed := List.flatMap_congr fun g hg => (hgroup g hg).1
  obtain ⟨synced, hresult⟩ := @runFates_ok _ svc env (env.fate svc) groups sched hnone
  have hsends := @runFates_sends _ svc env (env.fate svc) groups sched hnone
  rw [List.flatMap_congr fun g hg => (hgroup g hg).2, ← List.map_flatMap] at hsends
  rw [hindexed] at hresult
  have hperm := indexed_perm (sequentialReplies node s placed) hsplit sched
  have hlen : (sequentialReplies node s placed).length = placed.length := by
    simp [sequentialReplies, sequentialCalls]
  have hfst : (((placed.map fun x => x.2.index).zip ((sequentialReplies node s placed).map
      unwrapOrNull)).map Prod.fst) = placed.map fun x => x.2.index :=
    List.map_fst_zip (by simp [hlen])
  have hnodup := (hperm.map Prod.fst).nodup_iff.mpr (by rwa [hfst])
  refine ⟨⟨synced, ?_⟩, fun j x r hx hr => ?_, h.state hq ha hwait hsplit⟩
  · rw [runGroups_eq_runFates, hresult, mergeSort_eq_of_perm hperm hnodup]
  · rw [callerResult_eq_receive, runGroups_eq_runFates, hsends]
    refine receive_of_mem (by rwa [List.map_map])
      (List.mem_map.mpr ⟨(x.2.index, unwrapOrNull r), ?_, rfl⟩)
    refine hperm.mem_iff.mpr (List.mem_of_getElem? (i := j) ?_)
    exact List.getElem?_zip_eq_some.mpr ⟨by simp [hx], by simp [hr]⟩

theorem Delivery.acts_of_split (hs : svc.options.skipResult = false)
    (ha : svc.options.isAtomic = false) (hq : ∀ p, env.enqueueError p = none)
    (hwait : WaitIsPure svc node) (hp : prepare svc env q = .ok groups)
    (hsnd : placed.map Prod.snd = q.entries.map (·.loaded svc.useScriptCache sha1))
    (hsplit : SplitBy placed groups) (hd : Delivery node s env (executeInMemory svc env q sched) w) :
    ActsInSequence node s placed (executeInMemory svc env q sched) w := by
  by_cases hne : q.entries = []
  · have hrun : executeInMemory svc env q sched = ⟨[], [], .ok ⟨[], 0⟩⟩ := by
      simp [executeInMemory, hne]
    obtain rfl : placed = [] := by simpa [hne] using hsnd
    rw [hrun] at hd ⊢
    refine ⟨⟨0, by simp⟩, fun j x r hx => by simp at hx, after_family_congr fun p => ?_⟩
    rw [hd.merged]
    rfl
  · rw [executeInMemory_ok hne hp] at hd ⊢
    have hn : (placed.map fun x => x.2.index).Nodup := by
      have hindexes := congrArg (List.map BatchCommandData.index) hsnd
      simp only [List.map_map, Function.comp_def, BatchCommandData.loaded_index] at hindexes
      rw [hindexes]
      exact q.nodup
    exact hd.actsInSequence hq hs ha hwait hn hsplit

end Delivery

/-! The two reads on the two-node cluster, whose nodes number their calls. The pipelines are
queued upper node first and arrive lower node first. -/

def Environment.withReply (env : Environment sha1) (reply : Server → Nat → Reply) :
    Environment sha1 := { env with reply }

end Redisson
