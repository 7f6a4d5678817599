import Redisson.NodeMap
import Redisson.ServiceManager

/-! `load_scripts`: with the script cache on, every EVAL of a node group becomes the
EVALSHA of the same script, and scripts unknown to the node are loaded on it first. -/

namespace Redisson

variable {sha1 : String → String}

/-- The state `load_scripts` works on; `loads` logs the SCRIPT LOAD calls with the slot
they are sent to, oldest first. -/
structure LoadState (sha1 : String → String) where
  caches : ScriptCaches sha1
  loads : List (Slot × String)

def scriptsToLoad (server : Server) :
    List BatchCommandData → ScriptCaches sha1 → List String → List String × ScriptCaches sha1
  | [], caches, toLoad => (toLoad, caches)
  | d :: ds, caches, toLoad =>
    match d.cmd with
    | .eval script _ _ =>
      let (cached, caches) := caches.isCached server script
      if !cached && !toLoad.contains script then scriptsToLoad server ds caches (toLoad ++ [script])
      else scriptsToLoad server ds caches toLoad
    | _ => scriptsToLoad server ds caches toLoad

def sendLoads (loadReply : Nat → Reply) (slot : Slot) :
    List String → LoadState sha1 → Except Error Unit × LoadState sha1
  | [], st => (.ok (), st)
  | script :: scripts, st =>
    let sent := { st with loads := st.loads ++ [(slot, script)] }
    match loadReply st.loads.length with
    | .ok _ => sendLoads loadReply slot scripts sent
    | .error e => (.error ⟨"SCRIPT LOAD failed: " ++ e.message⟩, sent)

def rewriteEvals :
    List BatchCommandData → ScriptCaches sha1 → List BatchCommandData × ScriptCaches sha1
  | [], caches => ([], caches)
  | d :: ds, caches =>
    match d.cmd with
    | .eval script keys args =>
      let (sha, caches) := caches.calcSha script
      let (ds, caches) := rewriteEvals ds caches
      ({ d with cmd := .evalSha sha keys args } :: ds, caches)
    | _ =>
      let (ds, caches) := rewriteEvals ds caches
      (d :: ds, caches)

/-- The loads of one group; `cache_scripts` runs only after all of them succeeded. -/
def loadMissing (loadReply : Nat → Reply) (g : Group) (st : LoadState sha1) :
    Except Error Unit × LoadState sha1 :=
  let server := g.mse.primary
  let (toLoad, caches) := scriptsToLoad server g.commands st.caches []
  let st := { st with caches }
  if toLoad.isEmpty then (.ok (), st)
  else
    match sendLoads loadReply g.mse.slotOrZero toLoad st with
    | (.ok (), st) => (.ok (), { st with caches := st.caches.cacheScripts server toLoad })
    | (.error e, st) => (.error e, st)

def loadGroup (loadReply : Nat → Reply) (g : Group) (st : LoadState sha1) :
    Except Error Group × LoadState sha1 :=
  match loadMissing loadReply g st with
  | (.error e, st) => (.error e, st)
  | (.ok (), st) =>
    let (commands, caches) := rewriteEvals g.commands st.caches
    (.ok { g with entry := { g.entry with commands } }, { st with caches })

def loadGroups (loadReply : Nat → Reply) :
    List Group → LoadState sha1 → Except Error (List Group) × LoadState sha1
  | [], st => (.ok [], st)
  | g :: gs, st =>
    match loadGroup loadReply g st with
    | (.error e, st) => (.error e, st)
    | (.ok g, st) =>
      match loadGroups loadReply gs st with
      | (.error e, st) => (.error e, st)
      | (.ok gs, st) => (.ok (g :: gs), st)

def loadScripts (useScriptCache : Bool) (loadReply : Nat → Reply) (gs : List Group)
    (st : LoadState sha1) : Except Error (List Group) × LoadState sha1 :=
  if useScriptCache then loadGroups loadReply gs st else (.ok gs, st)

def BatchCommandData.rewriteEval (sha1 : String → String) (d : BatchCommandData) :
    BatchCommandData :=
  match d.cmd with
  | .eval script keys args => { d with cmd := .evalSha (sha1 script) keys args }
  | _ => d

def BatchCommandData.loaded (useScriptCache : Bool) (sha1 : String → String)
    (d : BatchCommandData) : BatchCommandData :=
  if useScriptCache then d.rewriteEval sha1 else d

def Group.mapCommands (f : BatchCommandData → BatchCommandData) (g : Group) : Group :=
  { g with entry := { g.entry with commands := g.commands.map f } }

@[simp] theorem Group.mapCommands_mse (f : BatchCommandData → BatchCommandData) (g : Group) :
    (g.mapCommands f).mse = g.mse := rfl

@[simp] theorem Group.mapCommands_commands (f : BatchCommandData → BatchCommandData) (g : Group) :
    (g.mapCommands f).commands = g.commands.map f := rfl

@[simp] theorem BatchCommandData.loaded_index (useScriptCache : Bool) (d : BatchCommandData) :
    (d.loaded useScriptCache sha1).index = d.index := by
  unfold loaded rewriteEval
  split
  · split <;> rfl
  · rfl

@[simp] theorem BatchCommandData.loaded_routingKey (useScriptCache : Bool) (d : BatchCommandData) :
    (d.loaded useScriptCache sha1).cmd.routingKey = d.cmd.routingKey := by
  unfold loaded rewriteEval
  split
  · split
    · next hd => simp only [hd, RedisCommand.routingKey]
    · rfl
  · rfl

theorem rewriteEvals_fst (ds : List BatchCommandData) (caches : ScriptCaches sha1) :
    (rewriteEvals ds caches).1 = ds.map (·.rewriteEval sha1) := by
  induction ds generalizing caches with
  | nil => rfl
  | cons d ds ih =>
    cases hd : d.cmd <;> simp [rewriteEvals, BatchCommandData.rewriteEval, hd, ih]

theorem loadGroup_ok {loadReply : Nat → Reply} {g out : Group} {st : LoadState sha1}
    (h : (loadGroup loadReply g st).1 = .ok out) : out = g.mapCommands (·.rewriteEval sha1) := by
  cases hm : loadMissing loadReply g st with
  | mk loaded st₁ =>
    cases loaded with
    | error e => simp [loadGroup, hm] at h
    | ok =>
      simp only [loadGroup, hm, rewriteEvals_fst, Except.ok.injEq] at h
      exact h.symm

theorem loadGroups_ok {loadReply : Nat → Reply} {gs out : List Group} {st : LoadState sha1}
    (h : (loadGroups loadReply gs st).1 = .ok out) :
    out = gs.map (Group.mapCommands (·.rewriteEval sha1)) := by
  induction gs generalizing out st with
  | nil =>
    have ho : [] = out := by simpa [loadGroups] using h
    simp [← ho]
  | cons g gs ih =>
    cases hg : loadGroup loadReply g st with
    | mk first st₁ =>
      cases first with
      | error e => simp [loadGroups, hg] at h
      | ok g' =>
        cases hgs : loadGroups loadReply gs st₁ with
        | mk rest st₂ =>
          cases rest with
          | error e => simp [loadGroups, hg, hgs] at h
          | ok gs' =>
            have ho : g' :: gs' = out := by simpa [loadGroups, hg, hgs] using h
            have hhead : g' = g.mapCommands (·.rewriteEval sha1) :=
              loadGroup_ok (congrArg Prod.fst hg)
            rw [← ho, hhead, ih (congrArg Prod.fst hgs), List.map_cons]

/-- A successful `load_scripts` keeps the groups, their order and the order inside them. -/
theorem loadScripts_ok {useScriptCache : Bool} {loadReply : Nat → Reply} {gs out : List Group}
    {st : LoadState sha1} (h : (loadScripts useScriptCache loadReply gs st).1 = .ok out) :
    out = gs.map (Group.mapCommands (·.loaded useScriptCache sha1)) := by
  cases useScriptCache with
  | false =>
    have ho : gs = out := by simpa [loadScripts] using h
    have hid : Group.mapCommands (·.loaded false sha1) = id := by
      funext g
      simp [BatchCommandData.loaded, Group.mapCommands, Group.commands]
    rw [hid, List.map_id, ho]
  | true =>
    have hh := loadGroups_ok (by simpa [loadScripts] using h)
    simpa [BatchCommandData.loaded] using hh

end Redisson
