import Redisson.LoadScripts
import Mathlib.Data.List.Forall2

/-! What a successful `load_scripts` leaves behind: the same commands with every EVAL turned
into the EVALSHA of its script, one SCRIPT LOAD for each script that a node was not known to
have, and a cache that knows all of them. -/

namespace Redisson

variable {sha1 : String → String}

namespace ScriptCaches

/-- `SCRIPT_SHA_CACHE` has the SHA for the server. -/
def Knows (c : ScriptCaches sha1) (server : Server) (sha : String) : Prop :=
  sha ∈ (c.scriptShaCache.lookup server).getD ∅

variable {c : ScriptCaches sha1} {server s : Server} {script sha : String}

theorem knows_congr {c' : ScriptCaches sha1} (h : c'.scriptShaCache = c.scriptShaCache) :
    c'.Knows server sha ↔ c.Knows server sha := by
  rw [Knows, Knows, h]

theorem isCached_iff : (c.isCached server script).1 = true ↔ c.Knows server (sha1 script) := by
  unfold isCached Knows
  cases h : c.scriptShaCache.lookup server <;> simp [calcSha, h]

theorem isCached_known : (c.isCached server script).2.scriptShaCache = c.scriptShaCache := rfl

theorem calcShas_spec (scripts : List String) (c : ScriptCaches sha1) :
    (∀ sha, sha ∈ (c.calcShas scripts).1 ↔ sha ∈ scripts.map sha1) ∧
      (c.calcShas scripts).2.scriptShaCache = c.scriptShaCache := by
  induction scripts generalizing c with
  | nil => simp [calcShas]
  | cons script scripts ih =>
    obtain ⟨hmem, hknown⟩ := ih (c.calcSha script).2
    refine ⟨fun sha => ?_, hknown⟩
    simp [calcShas, hmem]

theorem knows_cacheScripts (scripts : List String) :
    (c.cacheScripts server scripts).Knows s sha ↔
      c.Knows s sha ∨ s = server ∧ sha ∈ scripts.map sha1 := by
  obtain ⟨hmem, hknown⟩ := calcShas_spec scripts c
  unfold cacheScripts Knows
  by_cases hs : s = server
  · subst hs
    simp [hmem, hknown]
  · simp [hs, hknown, AList.lookup_insert_ne hs]

end ScriptCaches

/-! One group. -/

def evalScript (d : BatchCommandData) : Option String :=
  match d.cmd with
  | .eval script _ _ => some script
  | _ => none

def evalScripts (ds : List BatchCommandData) : List String := ds.filterMap evalScript

theorem scriptsToLoad_of_none {server : Server} {d : BatchCommandData}
    (h : evalScript d = none) (ds : List BatchCommandData) (caches : ScriptCaches sha1)
    (toLoad : List String) :
    scriptsToLoad server (d :: ds) caches toLoad = scriptsToLoad server ds caches toLoad := by
  unfold evalScript at h
  cases hd : d.cmd <;> simp [hd] at h <;> simp [scriptsToLoad, hd]

theorem scriptsToLoad_of_some {server : Server} {d : BatchCommandData} {script : String}
    (h : evalScript d = some script) (ds : List BatchCommandData) (caches : ScriptCaches sha1)
    (toLoad : List String) :
    scriptsToLoad server (d :: ds) caches toLoad =
      scriptsToLoad server ds (caches.isCached server script).2
        (if !(caches.isCached server script).1 && !toLoad.contains script then toLoad ++ [script]
        else toLoad) := by
  unfold evalScript at h
  cases hd : d.cmd <;> simp [hd] at h
  subst h
  simp only [scriptsToLoad, hd]
  split <;> rfl

/-- What `load_scripts` makes of the list when it comes to one more EVAL. -/
theorem mem_nextToLoad {server : Server} {caches : ScriptCaches sha1} {script : String}
    {toLoad next : List String} (hnodup : toLoad.Nodup)
    (hnext : (if !(caches.isCached server script).1 && !toLoad.contains script then
      toLoad ++ [script] else toLoad) = next) :
    next.Nodup ∧ ∀ s, s ∈ next ↔ s ∈ toLoad ∨ s = script ∧ ¬ caches.Knows server (sha1 s) := by
  have hcached := @ScriptCaches.isCached_iff _ caches server script
  by_cases hnew : (!(caches.isCached server script).1 && !toLoad.contains script) = true
  · rw [if_pos hnew] at hnext
    obtain ⟨hunknown, hfresh⟩ : ¬ caches.Knows server (sha1 script) ∧ script ∉ toLoad := by
      rw [← hcached]
      simpa using hnew
    subst hnext
    refine ⟨hnodup.append (List.nodup_singleton _) (by simpa using hfresh), fun s => ?_⟩
    rw [List.mem_append, List.mem_singleton]
    refine or_congr_right ⟨fun hs => ⟨hs, ?_⟩, And.left⟩
    rw [hs]
    exact hunknown
  · rw [if_neg hnew] at hnext
    have hold : ¬ caches.Knows server (sha1 script) → script ∈ toLoad := by
      rw [← hcached]
      simpa using hnew
    subst hnext
    refine ⟨hnodup, fun s => ⟨.inl, fun hs => ?_⟩⟩
    rcases hs with hs | ⟨rfl, hunknown⟩
    · exact hs
    · exact hold hunknown

theorem scriptsToLoad_spec (server : Server) (ds : List BatchCommandData)
    (caches : ScriptCaches sha1) (toLoad : List String) (hnodup : toLoad.Nodup) :
    (scriptsToLoad server ds caches toLoad).1.Nodup ∧
      (∀ script, script ∈ (scriptsToLoad server ds caches toLoad).1 ↔
        script ∈ toLoad ∨ script ∈ evalScripts ds ∧ ¬ caches.Knows server (sha1 script)) ∧
      (scriptsToLoad server ds caches toLoad).2.scriptShaCache = caches.scriptShaCache := by
  induction ds generalizing caches toLoad with
  | nil => simp [scriptsToLoad, evalScripts, hnodup]
  | cons d ds ih =>
    cases hd : evalScript d with
    | none =>
      rw [scriptsToLoad_of_none hd, evalScripts, List.filterMap_cons_none hd]
      exact ih caches toLoad hnodup
    | some script =>
      rw [scriptsToLoad_of_some hd, evalScripts, List.filterMap_cons_some hd]
      generalize hnext : (if !(caches.isCached server script).1 && !toLoad.contains script then
        toLoad ++ [script] else toLoad) = next
      have hsame : ∀ s, (caches.isCached server script).2.Knows server s ↔ caches.Knows server s :=
        fun s => ScriptCaches.knows_congr ScriptCaches.isCached_known
      obtain ⟨hnext_nodup, hmem⟩ := mem_nextToLoad hnodup hnext
      obtain ⟨h₁, h₂, h₃⟩ := ih (caches.isCached server script).2 next hnext_nodup
      refine ⟨h₁, fun s => ?_, h₃⟩
      rw [h₂, hsame, hmem, List.mem_cons, or_assoc, ← or_and_right]
      rfl

theorem rewriteEvals_known (ds : List BatchCommandData) (caches : ScriptCaches sha1) :
    (rewriteEvals ds caches).2.scriptShaCache = caches.scriptShaCache := by
  induction ds generalizing caches with
  | nil => rfl
  | cons d ds ih =>
    cases hd : d.cmd with
    | eval script keys args =>
      simp only [rewriteEvals, hd]
      exact ih (caches.calcSha script).2
    | _ => simp [rewriteEvals, hd, ih]

/-- The scripts to load for a group: each EVAL script that its node is not known to have, once. -/
structure LoadedFor (caches : ScriptCaches sha1) (g : Group) (scripts : List String) : Prop where
  nodup : scripts.Nodup
  mem_iff : ∀ script, script ∈ scripts ↔
    script ∈ evalScripts g.commands ∧ (caches.isCached g.mse.primary script).1 = false

theorem LoadedFor.congr {caches caches' : ScriptCaches sha1} {g : Group} {scripts : List String}
    (hsame : ∀ sha, caches'.Knows g.mse.primary sha ↔ caches.Knows g.mse.primary sha)
    (h : LoadedFor caches g scripts) : LoadedFor caches' g scripts := by
  refine ⟨h.nodup, fun script => ?_⟩
  rw [h.mem_iff, ← Bool.not_eq_true, ← Bool.not_eq_true, ScriptCaches.isCached_iff,
    ScriptCaches.isCached_iff, hsame]

section Loads

variable {loadReply : Nat → Reply} (hok : ∀ n, ∃ v, loadReply n = .ok v)
include hok

theorem sendLoads_ok (slot : Slot) (scripts : List String) (st : LoadState sha1) :
    sendLoads loadReply slot scripts st =
      (.ok (), { st with loads := st.loads ++ scripts.map (slot, ·) }) := by
  induction scripts generalizing st with
  | nil => simp [sendLoads]
  | cons script scripts ih =>
    obtain ⟨v, hv⟩ := hok st.loads.length
    simp [sendLoads, hv, ih]

theorem loadGroup_spec (g : Group) (st : LoadState sha1) :
    ∃ scripts st', loadGroup loadReply g st = (.ok (g.mapCommands (·.rewriteEval sha1)), st') ∧
      LoadedFor st.caches g scripts ∧
      st'.loads = st.loads ++ scripts.map (g.mse.slotOrZero, ·) ∧
      ∀ s sha, st'.caches.Knows s sha ↔
        st.caches.Knows s sha ∨ s = g.mse.primary ∧ sha ∈ scripts.map sha1 := by
  obtain ⟨hnodup, hmem, hknown⟩ :=
    scriptsToLoad_spec g.mse.primary g.commands st.caches [] List.nodup_nil
  rcases hscan : scriptsToLoad g.mse.primary g.commands st.caches [] with ⟨scripts, caches⟩
  rw [hscan] at hnodup hmem hknown
  have hloaded : LoadedFor st.caches g scripts := by
    refine ⟨hnodup, fun script => ?_⟩
    rw [hmem, ← Bool.not_eq_true, ScriptCaches.isCached_iff]
    simp
  have hcaches : ∀ s sha, caches.Knows s sha ↔ st.caches.Knows s sha :=
    fun s sha => ScriptCaches.knows_congr hknown
  have hrewrite : ∀ (c : ScriptCaches sha1) s sha,
      (rewriteEvals g.commands c).2.Knows s sha ↔ c.Knows s sha :=
    fun c s sha => ScriptCaches.knows_congr (rewriteEvals_known g.commands c)
  by_cases hnone : scripts = []
  · refine ⟨[], { st with caches := (rewriteEvals g.commands caches).2 }, ?_, hnone ▸ hloaded,
      by simp, fun s sha => ?_⟩
    · simp [loadGroup, loadMissing, hscan, hnone, rewriteEvals_fst, Group.mapCommands]
    · rw [hrewrite, hcaches]
      simp
  · have hsend := sendLoads_ok hok g.mse.slotOrZero scripts { st with caches }
    refine ⟨scripts, ⟨(rewriteEvals g.commands (caches.cacheScripts g.mse.primary scripts)).2,
      st.loads ++ scripts.map (g.mse.slotOrZero, ·)⟩, ?_, hloaded, rfl, fun s sha => ?_⟩
    · simp [loadGroup, loadMissing, hscan, hnone, hsend, rewriteEvals_fst, Group.mapCommands]
    · rw [hrewrite, ScriptCaches.knows_cacheScripts, hcaches]

/-- Group after group: a group's scripts are judged by the caches before the first one, since no
other group has its primary. -/
theorem loadGroups_spec (gs : List Group) (st : LoadState sha1)
    (hdistinct : (gs.map (·.mse.primary)).Nodup) :
    ∃ loads st', loadGroups loadReply gs st =
        (.ok (gs.map (Group.mapCommands (·.rewriteEval sha1))), st') ∧
      List.Forall₂ (LoadedFor st.caches) gs loads ∧
      st'.loads = st.loads ++
        (gs.zip loads).flatMap (fun p => p.2.map (p.1.mse.slotOrZero, ·)) ∧
      (∀ s sha, st.caches.Knows s sha → st'.caches.Knows s sha) ∧
      ∀ g ∈ gs, ∀ script ∈ evalScripts g.commands,
        st'.caches.Knows g.mse.primary (sha1 script) := by
  induction gs generalizing st with
  | nil => exact ⟨[], st, rfl, .nil, by simp, fun _ _ h => h, by simp⟩
  | cons g gs ih =>
    obtain ⟨hg, hrest⟩ := List.nodup_cons.mp hdistinct
    obtain ⟨scripts, st₁, hload, hfor, hloads, hknows⟩ := loadGroup_spec hok g st
    obtain ⟨loads, st₂, hload₂, hfor₂, hloads₂, hkept, hall⟩ := ih st₁ hrest
    refine ⟨scripts :: loads, st₂, ?_, .cons hfor ?_, ?_, ?_, ?_⟩
    · simp [loadGroups, hload, hload₂]
    · have hothers : ∀ g' ∈ gs, g'.mse.primary ≠ g.mse.primary :=
        fun g' hg' heq => hg (List.mem_map.mpr ⟨g', hg', heq⟩)
      refine ((List.forall₂_and_left gs loads).mpr ⟨hothers, hfor₂⟩).imp fun g' _ hh => ?_
      refine hh.2.congr fun sha => ?_
      rw [hknows]
      simp [hh.1]
    · rw [hloads₂, hloads]
      simp
    · exact fun s sha h => hkept s sha ((hknows s sha).mpr (.inl h))
    · intro g' hg' script hscript
      rcases List.mem_cons.mp hg' with rfl | hg'
      · refine hkept _ _ ((hknows _ _).mpr ?_)
        by_cases hold : st.caches.Knows g'.mse.primary (sha1 script)
        · exact .inl hold
        · refine .inr ⟨rfl, List.mem_map_of_mem ((hfor.mem_iff script).mpr ⟨hscript, ?_⟩)⟩
          rwa [← Bool.not_eq_true, ScriptCaches.isCached_iff]
      · exact hall g' hg' script hscript

end Loads

/-! How often a script is loaded on a node, when the slot of each group is served by its node. -/

def loadCount (owner : Slot → Server) (server : Server) (script : String)
    (loads : List (Slot × String)) : Nat :=
  loads.countP fun l => owner l.1 = server ∧ l.2 = script

section Counting

variable {owner : Slot → Server} {server : Server} {script : String} {caches : ScriptCaches sha1}

theorem loadCount_append (xs ys : List (Slot × String)) :
    loadCount owner server script (xs ++ ys) =
      loadCount owner server script xs + loadCount owner server script ys :=
  List.countP_append

theorem loadCount_group {g : Group} {scripts : List String}
    (howner : owner g.mse.slotOrZero = g.mse.primary) (h : LoadedFor caches g scripts) :
    loadCount owner server script (scripts.map (g.mse.slotOrZero, ·)) =
      if g.mse.primary = server ∧ script ∈ scripts then 1 else 0 := by
  have hcount := h.nodup.count (a := script)
  unfold loadCount
  rw [List.countP_map]
  by_cases hserver : g.mse.primary = server
  · rw [List.count] at hcount
    simp only [hserver, true_and, ← hcount]
    refine List.countP_congr fun s _ => ?_
    simp [howner, hserver]
  · rw [if_neg fun hh => hserver hh.1, List.countP_eq_zero]
    intro s _
    simp [howner, hserver]

theorem loadCount_eq {gs : List Group} {loads : List (List String)}
    (hdistinct : (gs.map (·.mse.primary)).Nodup)
    (howner : ∀ g ∈ gs, owner g.mse.slotOrZero = g.mse.primary)
    (h : List.Forall₂ (LoadedFor caches) gs loads) :
    (∀ g ∈ gs, loadCount owner g.mse.primary script
      ((gs.zip loads).flatMap fun p => p.2.map (p.1.mse.slotOrZero, ·)) =
        if script ∈ evalScripts g.commands ∧ (caches.isCached g.mse.primary script).1 = false then 1
        else 0) ∧
    ∀ server, (∀ g ∈ gs, g.mse.primary ≠ server) → loadCount owner server script
      ((gs.zip loads).flatMap fun p => p.2.map (p.1.mse.slotOrZero, ·)) = 0 := by
  induction h with
  | nil => simp [loadCount]
  | @cons g scripts gs loads hfor hrest ih =>
    obtain ⟨hg, hdistinct⟩ := List.nodup_cons.mp hdistinct
    obtain ⟨hmember, hother⟩ := ih hdistinct fun g hg => howner g (List.mem_cons_of_mem _ hg)
    have hhead := howner g List.mem_cons_self
    have hne : ∀ g' ∈ gs, g'.mse.primary ≠ g.mse.primary :=
      fun g' hg' heq => hg (List.mem_map.mpr ⟨g', hg', heq⟩)
    constructor
    · intro g' hg'
      rw [List.zip_cons_cons, List.flatMap_cons, loadCount_append, loadCount_group hhead hfor]
      rcases List.mem_cons.mp hg' with rfl | hg'
      · rw [hother _ hne, Nat.add_zero]
        simp only [true_and, hfor.mem_iff]
      · rw [hmember g' hg', if_neg fun hh => hne g' hg' hh.1.symm, Nat.zero_add]
    · intro server hserver
      rw [List.zip_cons_cons, List.flatMap_cons, loadCount_append, loadCount_group hhead hfor,
        hother server fun g hg => hserver g (List.mem_cons_of_mem _ hg),
        if_neg fun hh => hserver g List.mem_cons_self hh.1]

end Counting

/-! The rewritten batch. -/

/-- An EVAL became the EVALSHA of exactly its script; anything else stayed what it was. -/
def BatchCommandData.Rewritten (sha1 : String → String) (d d' : BatchCommandData) : Prop :=
  d'.index = d.index ∧
    match d.cmd with
    | .eval script keys args => d'.cmd = .evalSha (sha1 script) keys args
    | cmd => d'.cmd = cmd

structure Group.Rewritten (sha1 : String → String) (g g' : Group) : Prop where
  mse : g'.mse = g.mse
  readOnly : g'.entry.readOnly = g.entry.readOnly
  commands : List.Forall₂ (BatchCommandData.Rewritten sha1) g.commands g'.commands

structure ScriptsLoaded (gs : List Group) (st : LoadState sha1) (out : List Group)
    (st' : LoadState sha1) : Prop where
  rewritten : List.Forall₂ (Group.Rewritten sha1) gs out
  noEval : ∀ g ∈ out, evalScripts g.commands = []
  loads : ∃ loads, List.Forall₂ (LoadedFor st.caches) gs loads ∧ st'.loads = st.loads ++
    (gs.zip loads).flatMap (fun p => p.2.map (p.1.mse.slotOrZero, ·))
  once : ∀ owner : Slot → Server, (∀ g ∈ gs, owner g.mse.slotOrZero = g.mse.primary) →
    ∀ g ∈ gs, ∀ script,
      loadCount owner g.mse.primary script (st'.loads.drop st.loads.length) =
        if script ∈ evalScripts g.commands ∧
          (st.caches.isCached g.mse.primary script).1 = false then 1 else 0
  cached : ∀ g ∈ gs, ∀ script ∈ evalScripts g.commands,
    (st'.caches.isCached g.mse.primary script).1 = true

theorem rewritten_rewriteEval (d : BatchCommandData) : d.Rewritten sha1 (d.rewriteEval sha1) := by
  unfold BatchCommandData.Rewritten BatchCommandData.rewriteEval
  cases hd : d.cmd <;> simp [hd]

theorem evalScript_rewriteEval (d : BatchCommandData) :
    evalScript (d.rewriteEval sha1) = none := by
  unfold evalScript BatchCommandData.rewriteEval
  cases hd : d.cmd <;> simp [hd]

theorem loadScripts_scriptsLoaded {loadReply : Nat → Reply} (gs : List Group)
    (st : LoadState sha1) (hdistinct : (gs.map (·.mse.primary)).Nodup)
    (hok : ∀ n, ∃ v, loadReply n = .ok v) :
    ∃ out st', loadScripts true loadReply gs st = (.ok out, st') ∧
      ScriptsLoaded gs st out st' := by
  obtain ⟨loads, st', hrun, hfor, hloads, -, hcached⟩ := loadGroups_spec hok gs st hdistinct
  refine ⟨_, st', by simpa [loadScripts] using hrun, ?_, ?_, ⟨loads, hfor, hloads⟩, ?_, ?_⟩
  · rw [List.forall₂_map_right_iff]
    refine List.forall₂_same.mpr fun g _ => ⟨rfl, rfl, ?_⟩
    rw [Group.mapCommands_commands, List.forall₂_map_right_iff]
    exact List.forall₂_same.mpr fun d _ => rewritten_rewriteEval d
  · intro g hg
    obtain ⟨g, -, rfl⟩ := List.mem_map.mp hg
    simp [evalScripts, evalScript_rewriteEval]
  · intro owner howner g hg script
    rw [hloads, List.drop_left]
    exact (loadCount_eq hdistinct howner hfor).1 g hg
  · intro g hg script hscript
    exact ScriptCaches.isCached_iff.mpr (hcached g hg script hscript)

/-! Two nodes; the first has one script twice and another once. -/

def evalOf (script : String) (index : Nat) : BatchCommandData :=
  ⟨.eval script [utf8Bytes "foo"] [], index⟩

def twoNodes : List Group :=
  [⟨⟨⟨"10.0.0.1", 7000⟩, some 12182⟩,
      ⟨[evalOf "return 1" 0, evalOf "return 2" 2, evalOf "return 1" 3], false⟩⟩,
    ⟨⟨⟨"10.0.0.2", 7000⟩, some 5061⟩, ⟨[evalOf "return 1" 1], false⟩⟩]

theorem loadScripts_scriptsLoaded_twoNodes :
    ∃ out st', loadScripts true (fun _ => .ok .null) twoNodes
        (⟨.empty, []⟩ : LoadState fun script => "sha of " ++ script) = (.ok out, st') ∧
      ScriptsLoaded twoNodes ⟨.empty, []⟩ out st' :=
  loadScripts_scriptsLoaded twoNodes ⟨.empty, []⟩ (by decide) fun _ => ⟨.null, rfl⟩

end Redisson
