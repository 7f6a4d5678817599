import Redisson.CachedEval
import Redisson.LoadedScripts
import Redisson.PipelinedBatch

/-! What `load_scripts` does to the meaning of a batch: nothing. On nodes that keep scripts by
their SHA, the SCRIPT LOADs and the EVALSHAs give each caller what the EVALs would have given,
and leave the same data behind. -/

namespace Redisson

open AddressedMachines

variable {sha1 : String → String} {σ : Type}

/-- A pipeline sends EVAL and EVALSHA as custom commands. -/
def Call.pipelinedScript : Call → Option ScriptRequest
  | .custom name hash (.string body :: rest) =>
    if name = "EVAL" then some (.eval body rest)
    else if name = "EVALSHA" then some (.evalSha body false rest)
    else Call.scriptRequest (.custom name hash (.string body :: rest))
  | call => call.scriptRequest

/-- How a node runs a script, named by its SHA, and any other command. -/
structure ScriptNode (sha1 : String → String) (σ : Type) where
  runScript : (sha : String) → (operands : List Value) → σ → Reply × σ
  runCommand : Call → σ → Reply × σ

namespace ScriptNode

variable (node : ScriptNode sha1 σ)

def step (_ : Server) (n : RedisNode σ) (call : Call) : RedisNode σ × Reply :=
  match call.pipelinedScript with
  | some (.eval script operands) =>
    let (reply, data) := node.runScript (sha1 script) operands n.data
    (⟨data, insert (sha1 script) n.scripts⟩, reply)
  | some (.evalSha sha _ operands) =>
    if sha ∈ n.scripts then
      let (reply, data) := node.runScript sha operands n.data
      (⟨data, n.scripts⟩, reply)
    else (n, .error noscript)
  | some (.load script) => (⟨n.data, insert (sha1 script) n.scripts⟩, .ok (.string (sha1 script)))
  | none =>
    let (reply, data) := node.runCommand call n.data
    (⟨data, n.scripts⟩, reply)

/-- The second node has the data of the first and at least its scripts. -/
structure Richer (n n' : RedisNode σ) : Prop where
  data : n'.data = n.data
  scripts : n.scripts ⊆ n'.scripts

theorem Richer.refl (n : RedisNode σ) : Richer n n := ⟨rfl, Finset.Subset.refl _⟩

variable {node} {n n' : RedisNode σ} {p : Server} {call : Call}

theorem step_scripts (sha : String) (h : sha ∈ n.scripts) : sha ∈ (node.step p n call).1.scripts := by
  unfold step
  split
  · exact Finset.mem_insert_of_mem h
  · split <;> exact h
  · exact Finset.mem_insert_of_mem h
  · exact h

end ScriptNode

/-- The SHA that a command names itself; in a pipeline EVALSHA_RO is sent as EVALSHA. -/
def RedisCommand.namedSha : RedisCommand → Option String
  | .evalSha sha _ _ | .evalShaRo sha _ _ => some sha
  | _ => none

/-- What a command needs to be answered alike after `load_scripts`: the SHA it names is one the
node has at any rate, the script it carries one that has been loaded. -/
structure Provided (sha1 : String → String) (d : BatchCommandData) (known loaded : Finset String) :
    Prop where
  named : ∀ sha, d.cmd.namedSha = some sha → sha ∈ known
  carried : ∀ script, evalScript d = some script → sha1 script ∈ loaded

section Commands

variable {node : ScriptNode sha1 σ} {n n' : RedisNode σ} {p : Server} {d : BatchCommandData}

theorem pipelinedScript_eval (script : String) (keys : List Key) (args : List Value) :
    (RedisCommand.executeOn (.eval script keys args)).pipelinedScript =
      some (.eval script (operands keys args)) := rfl

theorem pipelinedScript_evalSha (sha : String) (keys : List Key) (args : List Value) :
    (RedisCommand.executeOn (.evalSha sha keys args)).pipelinedScript =
      some (.evalSha sha false (operands keys args)) := rfl

/-- A command that carries no script either names one or is left to the data. -/
theorem pipelinedScript_cases {cmd : RedisCommand}
    (h : ∀ script keys args, cmd ≠ .eval script keys args) :
    (∃ sha operands, cmd.namedSha = some sha ∧
        (RedisCommand.executeOn cmd).pipelinedScript = some (.evalSha sha false operands)) ∨
      (RedisCommand.executeOn cmd).pipelinedScript = none := by
  cases cmd with
  | eval script keys args => exact absurd rfl (h script keys args)
  | evalSha sha keys args | evalShaRo sha keys args => exact .inl ⟨sha, operands keys args, rfl, rfl⟩
  | _ => exact .inr rfl

/-- The rewritten command on the node with the scripts loaded, beside the command itself. -/
theorem step_rewriteEval (hn : ScriptNode.Richer n n') (hd : Provided sha1 d n.scripts n'.scripts) :
    let plain := node.step p n (RedisCommand.executeOn d.cmd)
    let loaded := node.step p n' (RedisCommand.executeOn (d.rewriteEval sha1).cmd)
    loaded.2 = plain.2 ∧ ScriptNode.Richer plain.1 loaded.1 := by
  by_cases heval : ∃ script keys args, d.cmd = .eval script keys args
  · obtain ⟨script, keys, args, hcmd⟩ := heval
    have hloaded : sha1 script ∈ n'.scripts := hd.carried script (by simp [evalScript, hcmd])
    have hrewritten : (d.rewriteEval sha1).cmd = .evalSha (sha1 script) keys args := by
      simp [BatchCommandData.rewriteEval, hcmd]
    simp only [ScriptNode.step, hcmd, hrewritten, pipelinedScript_eval, pipelinedScript_evalSha,
      if_pos hloaded, hn.data]
    exact ⟨trivial, rfl, Finset.insert_subset hloaded hn.scripts⟩
  · have hother : ∀ script keys args, d.cmd ≠ .eval script keys args := fun script keys args hcmd =>
      heval ⟨script, keys, args, hcmd⟩
    have hsame : d.rewriteEval sha1 = d := by
      unfold BatchCommandData.rewriteEval
      split
      · next hcmd => exact absurd hcmd (hother _ _ _)
      · rfl
    rw [hsame]
    rcases pipelinedScript_cases hother with ⟨sha, operands, hnamed, hscript⟩ | hscript
    · have hknown := hd.named sha hnamed
      simp only [ScriptNode.step, hscript, if_pos hknown, if_pos (hn.scripts hknown), hn.data]
      exact ⟨trivial, rfl, hn.scripts⟩
    · simp only [ScriptNode.step, hscript, hn.data]
      exact ⟨trivial, rfl, hn.scripts⟩

end Commands

section Sequences

variable {node : ScriptNode sha1 σ} {s s' : Server → RedisNode σ}
  {placed : List (Server × BatchCommandData)}

theorem family_scripts {q : Server × Call} {p : Server} {sha : String} (h : sha ∈ (s p).scripts) :
    sha ∈ ((family node.step s q).1 p).scripts := by
  by_cases hp : p = q.1
  · subst hp
    simpa [family] using ScriptNode.step_scripts sha h
  · simpa [family, hp] using h

/-- Command by command, the rewritten sequence is answered like the plain one. -/
theorem sequence_rewriteEval (hs : ∀ p, ScriptNode.Richer (s p) (s' p))
    (hd : ∀ x ∈ placed, Provided sha1 x.2 (s x.1).scripts (s' x.1).scripts) :
    let rewritten := placed.map fun x => (x.1, x.2.rewriteEval sha1)
    sequentialReplies node.step s' rewritten = sequentialReplies node.step s placed ∧
      ∀ p, ScriptNode.Richer (after (family node.step) s (sequentialCalls placed) p)
        (after (family node.step) s' (sequentialCalls rewritten) p) := by
  induction placed generalizing s s' with
  | nil => exact ⟨rfl, hs⟩
  | cons x placed ih =>
    obtain ⟨hreply, hrich⟩ :=
      @step_rewriteEval _ _ node _ _ x.1 _ (hs x.1) (hd x List.mem_cons_self)
    have hnext : ∀ p, ScriptNode.Richer
        ((family node.step s (x.1, RedisCommand.executeOn x.2.cmd)).1 p)
        ((family node.step s' (x.1, RedisCommand.executeOn (x.2.rewriteEval sha1).cmd)).1 p) := by
      intro p
      by_cases hp : p = x.1
      · subst hp
        simpa [family] using hrich
      · simpa [family, hp] using hs p
    have hrest := ih hnext fun y hy => by
      have hy := hd y (List.mem_cons_of_mem _ hy)
      exact ⟨fun sha h => family_scripts (hy.named sha h),
        fun script h => family_scripts (hy.carried script h)⟩
    exact ⟨congrArg₂ List.cons hreply hrest.1, hrest.2⟩

/-- The SCRIPT LOADs, sent to the nodes of their slots. -/
def loadCalls (owner : Slot → Server) (loads : List (Slot × String)) : List (Server × Call) :=
  loads.map fun l =>
    (owner l.1, .custom "SCRIPT" (.custom l.1) [.string "LOAD", .string l.2])

theorem after_loadCalls {owner : Slot → Server} (loads : List (Slot × String))
    (s : Server → RedisNode σ) :
    (∀ p, ScriptNode.Richer (s p) (after (family node.step) s (loadCalls owner loads) p)) ∧
      ∀ l ∈ loads, sha1 l.2 ∈
        (after (family node.step) s (loadCalls owner loads) (owner l.1)).scripts := by
  induction loads generalizing s with
  | nil => exact ⟨fun p => .refl _, by simp⟩
  | cons l loads ih =>
    let s₁ := (family node.step s
      (owner l.1, .custom "SCRIPT" (.custom l.1) [.string "LOAD", .string l.2])).1
    have hfirst :
        ∀ p, ScriptNode.Richer (s p) (s₁ p) ∧ (p = owner l.1 → sha1 l.2 ∈ (s₁ p).scripts) := by
      intro p
      by_cases hp : p = owner l.1
      · subst hp
        simp only [s₁, family, Function.update_self]
        exact ⟨⟨rfl, Finset.subset_insert _ _⟩, fun _ => Finset.mem_insert_self _ _⟩
      · simp only [s₁, family, Function.update_of_ne hp]
        exact ⟨.refl _, fun h => absurd h hp⟩
    obtain ⟨hrich, hloaded⟩ := ih s₁
    refine ⟨fun p => ⟨(hrich p).data.trans (hfirst p).1.data,
      (hfirst p).1.scripts.trans (hrich p).scripts⟩, fun l' hl' => ?_⟩
    rcases List.mem_cons.mp hl' with rfl | hl'
    · exact (hrich _).scripts ((hfirst _).2 rfl)
    · exact hloaded l' hl'

end Sequences

theorem exists_of_forall₂ {α β : Type*} {R : α → β → Prop} {as : List α} {bs : List β} {a : α}
    (h : List.Forall₂ R as bs) (ha : a ∈ as) : ∃ b, (a, b) ∈ as.zip bs ∧ R a b := by
  induction h with
  | nil => cases ha
  | cons hab _ ih =>
    rcases List.mem_cons.mp ha with rfl | ha
    · exact ⟨_, List.mem_cons_self, hab⟩
    · obtain ⟨b, hb, hr⟩ := ih ha
      exact ⟨b, List.mem_cons_of_mem _ hb, hr⟩

def BatchService.caching (svc : BatchService) (useScriptCache : Bool) : BatchService :=
  { svc with useScriptCache }

/-- The two runs return the same responses and give every caller the same. -/
structure SameOutcome (q : Queue) (run run' : BatchRun) : Prop where
  responses : ∃ responses synced synced',
    run.result = .ok ⟨responses, synced⟩ ∧ run'.result = .ok ⟨responses, synced'⟩
  callers : ∀ d ∈ q.entries, callerResult run d.index = callerResult run' d.index

section Batches

variable {svc : BatchService} {env : Environment sha1} {q : Queue} {groups : List Group}

theorem placements_caching : placements (svc.caching true) env q =
    (placements (svc.caching false) env q).map
      (List.map fun x => (x.1, x.2.rewriteEval sha1)) := by
  unfold placements
  simp only [BatchService.caching]
  cases resolveAll env.topologyAt env.keyslot svc.batchRetryAttempts q.entries 0 with
  | error e => rfl
  | ok mses =>
    simp only [Except.map, BatchCommandData.loaded, if_true, Bool.false_eq_true, if_false, List.map_id',
      List.zip_map_right]
    rfl

/-- The groups are prepared with and without the cache, and each script that a group carries is
known to be on its node or has been loaded there. -/
theorem prepare_caching (hload : ∀ n, ∃ v, env.loadReply n = .ok v)
    (hp : prepare (svc.caching false) env q = .ok groups) :
    ∃ loaded, prepare (svc.caching true) env q = .ok loaded ∧
      ∀ g ∈ groups, ∀ script ∈ evalScripts g.commands, env.caches.Knows g.mse.primary (sha1 script) ∨
        (g.mse.slotOrZero, script) ∈ (svc.caching true).scriptLoads env q := by
  cases hmap : groupEntries env.topologyAt env.keyslot svc.batchRetryAttempts q.entries 0 [] with
  | error e => simp [prepare, BatchService.caching, hmap] at hp
  | ok nodeMap =>
    obtain rfl : env.iterate nodeMap = groups := by
      simpa [prepare, BatchService.caching, hmap, loadScripts] using hp
    have hdistinct : ((env.iterate nodeMap).map (·.mse.primary)).Nodup :=
      ((env.iterate_perm nodeMap).map _).nodup_iff.mpr (groupEntries_primaries_nodup hmap)
    obtain ⟨loads, st, hrun, hfor, hloads, -, -⟩ :=
      loadGroups_spec hload (env.iterate nodeMap) ⟨env.caches, []⟩ hdistinct
    refine ⟨_, by simp [prepare, BatchService.caching, hmap, loadScripts, hrun]; rfl,
      fun g hg script hscript => ?_⟩
    obtain ⟨scripts, hpair, hscripts⟩ := exists_of_forall₂ hfor hg
    by_cases hknown : env.caches.Knows g.mse.primary (sha1 script)
    · exact .inl hknown
    · have hmem : script ∈ scripts := (hscripts.mem_iff script).mpr
        ⟨hscript, by rwa [← Bool.not_eq_true, ScriptCaches.isCached_iff]⟩
      have hsent : (svc.caching true).scriptLoads env q = st.loads := by
        simp [BatchService.scriptLoads, BatchService.caching, hmap, loadScripts, hrun]
      rw [hsent, hloads]
      exact .inr (List.mem_flatMap.mpr ⟨(g, scripts), hpair, List.mem_map_of_mem hmem⟩)

variable {node : ScriptNode sha1 σ} {s s' : Server → RedisNode σ}
  {placed : List (Server × BatchCommandData)} {run run' : BatchRun} {w w' : List (Server × Call)}

/-- The scripts that the batch needs are on their nodes once the SCRIPT LOADs have arrived. -/
theorem provided_after_loads {owner : Slot → Server} (hload : ∀ n, ∃ v, env.loadReply n = .ok v)
    (hp : prepare (svc.caching false) env q = .ok groups) (hsplit : SplitBy placed groups)
    (howner : ∀ g ∈ groups, owner g.mse.slotOrZero = g.mse.primary)
    (hsound : ∀ p sha, env.caches.Knows p sha → sha ∈ (s p).scripts)
    (hnamed : ∀ g ∈ groups, ∀ d ∈ g.commands, ∀ sha, d.cmd.namedSha = some sha →
      sha ∈ (s g.mse.primary).scripts) :
    ∀ x ∈ placed, Provided sha1 x.2 (s x.1).scripts (after (family node.step) s
      (loadCalls owner ((svc.caching true).scriptLoads env q)) x.1).scripts := by
  intro x hx
  obtain ⟨loaded, -, hscripts⟩ := prepare_caching hload hp
  obtain ⟨hrich, hloaded⟩ := @after_loadCalls _ _ node owner
    ((svc.caching true).scriptLoads env q) s
  obtain ⟨g, hg, hprimary⟩ := List.mem_map.mp (hsplit.covered x hx)
  have hd : x.2 ∈ g.commands := by
    rw [hsplit.commands g hg]
    exact List.mem_map_of_mem (List.mem_filter.mpr ⟨hx, by simp [hprimary]⟩)
  rw [← hprimary]
  refine ⟨hnamed g hg x.2 hd, fun script hscript => ?_⟩
  rcases hscripts g hg script (List.mem_filterMap.mpr ⟨x.2, hd, hscript⟩) with hknown | hsent
  · exact (hrich _).scripts (hsound _ _ hknown)
  · have hmem := hloaded _ hsent
    rwa [howner g hg] at hmem

theorem sameOutcome (hsnd : placed.map Prod.snd = q.entries)
    (hreplies : sequentialReplies node.step s' (placed.map fun x => (x.1, x.2.rewriteEval sha1)) =
      sequentialReplies node.step s placed)
    (hplain : ActsInSequence node.step s placed run w)
    (hcached : ActsInSequence node.step s' (placed.map fun x => (x.1, x.2.rewriteEval sha1)) run' w') :
    SameOutcome q run' run := by
  have hindex : ∀ d : BatchCommandData, (d.rewriteEval sha1).index = d.index := fun d =>
    BatchCommandData.loaded_index true d
  obtain ⟨synced, hresponses⟩ := hplain.responses
  obtain ⟨synced', hresponses'⟩ := hcached.responses
  refine ⟨⟨_, synced', synced, hresponses', ?_⟩, fun d hd => ?_⟩
  · rw [hresponses, hreplies]
    simp [Function.comp_def, hindex]
  · obtain ⟨j, hj⟩ := List.mem_iff_getElem?.mp hd
    rw [← hsnd, List.getElem?_map] at hj
    obtain ⟨x, hx, rfl⟩ := Option.map_eq_some_iff.mp hj
    have hlen : j < (sequentialReplies node.step s placed).length := by
      simpa [sequentialReplies, sequentialCalls] using (List.getElem?_eq_some_iff.mp hx).1
    have hr := List.getElem?_eq_getElem hlen
    have hcaller := hcached.callers j _ _ (by rw [List.getElem?_map, hx]; rfl)
      (by rw [hreplies, hr])
    rw [hindex] at hcaller
    rw [hcaller, hplain.callers j x _ hx hr]

/-- An in-memory batch without MULTI comes to the same with and without the script cache: the
same responses, the same for every caller, the same data on every node. Its nodes have what
`SCRIPT_SHA_CACHE` says they have and the SHAs that the queue itself names. -/
theorem cached_batch_acts_as_plain {owner : Slot → Server} {reply reply' : Server → Nat → Reply}
    {sched sched' : Schedule} (hs : svc.options.skipResult = false)
    (ha : svc.options.isAtomic = false) (hq : ∀ p, env.enqueueError p = none)
    (hload : ∀ n, ∃ v, env.loadReply n = .ok v) (hwait : WaitIsPure svc node.step)
    (hp : prepare (svc.caching false) env q = .ok groups)
    (howner : ∀ g ∈ groups, owner g.mse.slotOrZero = g.mse.primary)
    (hsound : ∀ p sha, env.caches.Knows p sha → sha ∈ (s p).scripts)
    (hnamed : ∀ g ∈ groups, ∀ d ∈ g.commands, ∀ sha, d.cmd.namedSha = some sha →
      sha ∈ (s g.mse.primary).scripts)
    (hplain : Delivery node.step s (env.withReply reply)
      (executeInMemory (svc.caching false) (env.withReply reply) q sched) w)
    (hcached : Delivery node.step (after (family node.step) s
        (loadCalls owner ((svc.caching true).scriptLoads env q))) (env.withReply reply')
      (executeInMemory (svc.caching true) (env.withReply reply') q sched') w') :
    SameOutcome q (executeInMemory (svc.caching true) (env.withReply reply') q sched')
        (executeInMemory (svc.caching false) (env.withReply reply) q sched) ∧
      ∀ p, (after (family node.step) (after (family node.step) s
          (loadCalls owner ((svc.caching true).scriptLoads env q))) w' p).data =
        (after (family node.step) s w p).data := by
  obtain ⟨placed, hplaced, hsnd, hsplit⟩ := prepare_placements hp
  obtain ⟨loaded, hp', -⟩ := prepare_caching hload hp
  obtain ⟨placed', hplaced', hsnd', hsplit'⟩ := prepare_placements hp'
  obtain rfl : placed.map (fun x => (x.1, x.2.rewriteEval sha1)) = placed' := by
    rw [placements_caching, hplaced] at hplaced'
    exact Except.ok.inj hplaced'
  have hrich := (@after_loadCalls _ _ node owner ((svc.caching true).scriptLoads env q) s).1
  obtain ⟨hreplies, hstates⟩ := sequence_rewriteEval hrich
    (provided_after_loads hload hp hsplit howner hsound hnamed)
  have hacts : ActsInSequence node.step s placed
      (executeInMemory (svc.caching false) (env.withReply reply) q sched) w :=
    hplain.acts_of_split hs ha hq hwait hp hsnd hsplit
  have hacts' : ActsInSequence node.step _ (placed.map fun x => (x.1, x.2.rewriteEval sha1))
      (executeInMemory (svc.caching true) (env.withReply reply') q sched') w' :=
    hcached.acts_of_split hs ha hq hwait hp' hsnd' hsplit'
  have hentries : placed.map Prod.snd = q.entries := by
    simpa [BatchService.caching, BatchCommandData.loaded] using hsnd
  refine ⟨sameOutcome hentries hreplies hacts hacts', fun p => ?_⟩
  rw [hacts.state, hacts'.state]
  exact (hstates p).data

end Batches

/-! One script twice on one node, which counts its runs: two EVALs, or SCRIPT LOAD and two
EVALSHAs. -/

def countingNode : ScriptNode (fun _ => "") Nat where
  runScript _ _ n := (.ok (.integer n), n + 1)
  runCommand _ n := (.ok .null, n)

def evalTwice : Queue := ⟨[evalOf "return 1" 0, evalOf "return 1" 1], by decide⟩

def freshNode (_ : Server) : RedisNode Nat := ⟨0, ∅⟩

def countedReply (_ : Server) (n : Nat) : Reply := .ok (.integer n)

theorem delivery_local {env : Environment fun _ => ""} {run : BatchRun} {calls : List Call}
    {s : Server → RedisNode Nat} (hreply : env.reply = countedReply)
    (hpipelines : run.pipelines = [(localServer, ⟨false, calls⟩)])
    (hanswers : answers (countingNode.step localServer) (s localServer) calls =
      (List.range calls.length).map fun n => .ok (.integer n)) :
    Delivery countingNode.step s env run (calls.map (Prod.mk localServer)) := by
  have hat : ∀ p, requestsAt p (calls.map (Prod.mk localServer)) =
      if p = localServer then calls else [] := fun p => by
    by_cases hp : p = localServer
    · simp [requestsAt, hp, List.filter_map, Function.comp_def]
    · simp [requestsAt, hp, Ne.symm hp, List.filter_map, Function.comp_def]
  refine ⟨by simp [hpipelines], fun p => ?_, fun p n r h => ?_⟩
  · by_cases hp : p = localServer
    · simp [hat, hpipelines, hp]
    · simp [hat, hpipelines, hp, Ne.symm hp]
  · rw [answersAt_family, hat] at h
    by_cases hp : p = localServer
    · subst hp
      rw [if_pos rfl, hanswers, List.getElem?_map, Option.map_eq_some_iff] at h
      obtain ⟨m, hm, rfl⟩ := h
      obtain ⟨hlt, hm⟩ := List.getElem?_eq_some_iff.mp hm
      rw [hreply, countedReply, ← hm, List.getElem_range]
    · simp [hp, answers] at h

theorem cached_batch_acts_as_plain_evalTwice :
    SameOutcome evalTwice
      (executeInMemory (plainService.caching true)
        ((oneNodeEnvironment (.ok .null)).withReply countedReply) evalTwice (.first 0))
      (executeInMemory (plainService.caching false)
        ((oneNodeEnvironment (.ok .null)).withReply countedReply) evalTwice (.first 0)) := by
  have hp : prepare (plainService.caching false) (oneNodeEnvironment (.ok .null)) evalTwice =
      .ok [⟨⟨localServer, none⟩, ⟨evalTwice.entries, false⟩⟩] := rfl
  have hplain := @delivery_local ((oneNodeEnvironment (.ok .null)).withReply countedReply)
    (executeInMemory (plainService.caching false)
      ((oneNodeEnvironment (.ok .null)).withReply countedReply) evalTwice (.first 0))
    (evalTwice.entries.map fun d => RedisCommand.executeOn d.cmd) freshNode rfl rfl rfl
  have hcached := @delivery_local ((oneNodeEnvironment (.ok .null)).withReply countedReply)
    (executeInMemory (plainService.caching true)
      ((oneNodeEnvironment (.ok .null)).withReply countedReply) evalTwice (.first 0))
    (evalTwice.entries.map fun d => RedisCommand.executeOn (d.rewriteEval fun _ => "").cmd)
    (after (family countingNode.step) freshNode (loadCalls (fun _ => localServer)
      ((plainService.caching true).scriptLoads (oneNodeEnvironment (.ok .null)) evalTwice)))
    rfl rfl rfl
  refine (cached_batch_acts_as_plain rfl rfl (fun _ => rfl) (fun _ => ⟨_, rfl⟩) ?_ hp ?_ ?_ ?_
    hplain hcached).1
  · exact fun hw => absurd hw (by decide)
  · simp
  · exact fun p sha hk => absurd hk (by simp [ScriptCaches.Knows, oneNodeEnvironment, ScriptCaches.empty])
  · intro g hg d hd sha hsha
    obtain rfl := List.mem_singleton.mp hg
    simp only [Group.commands, evalTwice, List.mem_cons, List.not_mem_nil, or_false] at hd
    rcases hd with rfl | rfl <;> cases hsha

end Redisson
