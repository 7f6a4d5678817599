import Redisson.LoadedScripts
import Redisson.LabelledRuns
import Redisson.PatternSubscription
import Mathlib.Data.Finset.Lattice.Lemmas

/-! Any number of `load_scripts` runs on one process, next to the nodes they load scripts on. A
node that restarts has lost its scripts, and slots may move between the nodes of a cluster; that
`SCRIPT_SHA_CACHE` learns of either is an event of its own, which is delivered later. -/

namespace Redisson

variable {sha1 : String → String}

structure ScriptConfig where
  mode : ServerMode
  hosts : List Server
  keyslot : Key → Slot

inductive ServerEvent
  | reconnect (server : Server)
  | clusterChange
  deriving DecidableEq

/-- Where an `execute_async` stands: grouping its commands, between two groups of
`load_scripts`, or between two SCRIPT LOADs of a group, of which it has made those in `sent`. -/
inductive LoadRun
  | grouping (groups : List Group)
  | loading (groups : List Group)
  | sending (g : Group) (sent todo : List String) (rest : List Group)

def LoadRun.idle : LoadRun := .grouping []

structure ScriptSystem (sha1 : String → String) where
  serving : Slot → Option Server
  clusterState : Option (Slot → Option Server)
  synced : Bool
  scripts : Server → Finset String
  caches : ScriptCaches sha1
  undelivered : List ServerEvent
  loads : Nat → LoadRun

/-- `resolve` groups one command and `start` ends the grouping. `check` takes a group, the map
has them in any order, and reads the cache for it; `load` is one SCRIPT LOAD, whose reply may be
lost, and `cache` is `cache_scripts`. `restart` and `migrate` happen to the servers, `sync` is the
client noticing a migration. -/
inductive ScriptEvent
  | resolve (t : Nat) (d : BatchCommandData)
  | start (t : Nat)
  | check (t : Nat) (i : Nat)
  | load (t : Nat) (answered : Bool)
  | cache (t : Nat)
  | fail (t : Nat)
  | finish (t : Nat)
  | restart (server : Server)
  | migrate (serving : Slot → Option Server)
  | sync
  | deliver (event : ServerEvent)

/-- The two event handlers, as far as scripts go. -/
def ScriptCaches.onEvent (c : ScriptCaches sha1) : ServerEvent → ScriptCaches sha1
  | .reconnect server => { c with scriptShaCache := c.scriptShaCache.erase server }
  | .clusterChange => { c with scriptShaCache := ∅ }

namespace ScriptSystem

def new (cfg : ScriptConfig) (serving : Slot → Option Server) (scripts : Server → Finset String) :
    ScriptSystem sha1 where
  serving := if cfg.mode = .cluster then serving else fun _ => serving 0
  clusterState := if cfg.mode = .cluster then some serving else none
  synced := true
  scripts := scripts
  caches := .empty
  undelivered := []
  loads := fun _ => .idle

def topology (cfg : ScriptConfig) (s : ScriptSystem sha1) : Topology := ⟨s.clusterState, cfg.hosts⟩

def setLoad (s : ScriptSystem sha1) (t : Nat) (r : LoadRun) : ScriptSystem sha1 :=
  { s with loads := Function.update s.loads t r }

def addScript (s : ScriptSystem sha1) (server : Server) (sha : String) : ScriptSystem sha1 :=
  { s with scripts := Function.update s.scripts server (insert sha (s.scripts server)) }

def restarted (s : ScriptSystem sha1) (server : Server) : ScriptSystem sha1 :=
  { s with
    scripts := Function.update s.scripts server ∅
    undelivered := s.undelivered ++ [.reconnect server] }

def migrated (s : ScriptSystem sha1) (serving : Slot → Option Server) : ScriptSystem sha1 :=
  { s with serving, synced := false }

def noticed (s : ScriptSystem sha1) : ScriptSystem sha1 :=
  { s with
    clusterState := some s.serving
    synced := true
    undelivered := s.undelivered ++ [.clusterChange] }

def delivered (s : ScriptSystem sha1) (e : ServerEvent) : ScriptSystem sha1 :=
  { s with undelivered := s.undelivered.erase e, caches := s.caches.onEvent e }

end ScriptSystem

open ScriptSystem in
def scriptStep (cfg : ScriptConfig) (s : ScriptSystem sha1) : ScriptEvent → Option (ScriptSystem sha1)
  | .resolve t d =>
    match s.loads t, (s.topology cfg).getWriteEntry (d.slot cfg.keyslot) with
    | .grouping groups, some mse => some (s.setLoad t (.grouping (addToNode groups mse d)))
    | _, _ => none
  | .start t =>
    match s.loads t with
    | .grouping groups => some (s.setLoad t (.loading groups))
    | _ => none
  | .check t i =>
    match s.loads t with
    | .loading groups =>
      match groups[i]? with
      | some g =>
        let (toLoad, caches) := scriptsToLoad g.mse.primary g.commands s.caches []
        if toLoad.isEmpty then some ({ s with caches }.setLoad t (.loading (groups.eraseIdx i)))
        else some ({ s with caches }.setLoad t (.sending g [] toLoad (groups.eraseIdx i)))
      | none => none
    | _ => none
  | .load t answered =>
    match s.loads t with
    | .sending g sent (script :: todo) rest =>
      match s.serving g.mse.slotOrZero with
      | some server =>
        let s := s.addScript server (sha1 script)
        if answered then some (s.setLoad t (.sending g (sent ++ [script]) todo rest))
        else some (s.setLoad t .idle)
      | none => none
    | _ => none
  | .cache t =>
    match s.loads t with
    | .sending g sent [] rest =>
      some ({ s with caches := s.caches.cacheScripts g.mse.primary sent }.setLoad t (.loading rest))
    | _ => none
  | .fail t => some (s.setLoad t .idle)
  | .finish t =>
    match s.loads t with
    | .loading [] => some (s.setLoad t .idle)
    | _ => none
  | .restart server => some (s.restarted server)
  | .migrate serving => if cfg.mode = .cluster then some (s.migrated serving) else none
  | .sync => if cfg.mode = .cluster then some s.noticed else none
  | .deliver e => if e ∈ s.undelivered then some (s.delivered e) else none

/-- What a step does, event by event. -/
inductive ScriptStep (cfg : ScriptConfig) (s : ScriptSystem sha1) :
    ScriptEvent → ScriptSystem sha1 → Prop
  | resolve {t : Nat} {d : BatchCommandData} {groups : List Group} {mse : MasterSlaveEntry}
      (ht : s.loads t = .grouping groups)
      (hentry : (s.topology cfg).getWriteEntry (d.slot cfg.keyslot) = some mse) :
      ScriptStep cfg s (.resolve t d) (s.setLoad t (.grouping (addToNode groups mse d)))
  | start {t : Nat} {groups : List Group} (ht : s.loads t = .grouping groups) :
      ScriptStep cfg s (.start t) (s.setLoad t (.loading groups))
  | check {t i : Nat} {groups : List Group} {g : Group} {r : LoadRun} {caches : ScriptCaches sha1}
      (ht : s.loads t = .loading groups) (hg : groups[i]? = some g)
      (hcaches : caches.scriptShaCache = s.caches.scriptShaCache)
      (hr : r = .loading (groups.eraseIdx i) ∨
        ∃ toLoad, r = .sending g [] toLoad (groups.eraseIdx i)) :
      ScriptStep cfg s (.check t i) ({ s with caches }.setLoad t r)
  | load {t : Nat} {answered : Bool} {g : Group} {sent todo : List String} {script : String}
      {rest : List Group} {server : Server} {r : LoadRun}
      (ht : s.loads t = .sending g sent (script :: todo) rest)
      (hserver : s.serving g.mse.slotOrZero = some server)
      (hr : r = .sending g (sent ++ [script]) todo rest ∨ r = .idle) :
      ScriptStep cfg s (.load t answered) ((s.addScript server (sha1 script)).setLoad t r)
  | cache {t : Nat} {g : Group} {sent : List String} {rest : List Group}
      (ht : s.loads t = .sending g sent [] rest) :
      ScriptStep cfg s (.cache t)
        ({ s with caches := s.caches.cacheScripts g.mse.primary sent }.setLoad t (.loading rest))
  | fail {t : Nat} : ScriptStep cfg s (.fail t) (s.setLoad t .idle)
  | finish {t : Nat} : ScriptStep cfg s (.finish t) (s.setLoad t .idle)
  | restart {server : Server} : ScriptStep cfg s (.restart server) (s.restarted server)
  | migrate {serving : Slot → Option Server} (hmode : cfg.mode = .cluster) :
      ScriptStep cfg s (.migrate serving) (s.migrated serving)
  | sync (hmode : cfg.mode = .cluster) : ScriptStep cfg s .sync s.noticed
  | deliver {e : ServerEvent} (he : e ∈ s.undelivered) :
      ScriptStep cfg s (.deliver e) (s.delivered e)

theorem scriptStep_cases {cfg : ScriptConfig} {s s' : ScriptSystem sha1} {e : ScriptEvent}
    (h : scriptStep cfg s e = some s') : ScriptStep cfg s e s' := by
  cases e with
  | resolve t d =>
    simp only [scriptStep] at h
    split at h
    · next groups mse ht hentry =>
      cases h
      exact .resolve ht hentry
    · cases h
  | start t =>
    simp only [scriptStep] at h
    split at h
    · next groups ht =>
      cases h
      exact .start ht
    · cases h
  | check t i =>
    simp only [scriptStep] at h
    split at h
    · next groups ht =>
      split at h
      · next g hg =>
        have hcaches := (scriptsToLoad_spec g.mse.primary g.commands s.caches [] List.nodup_nil).2.2
        split at h
        · cases h
          exact .check ht hg hcaches (.inl rfl)
        · cases h
          exact .check ht hg hcaches (.inr ⟨_, rfl⟩)
      · cases h
    · cases h
  | load t answered =>
    simp only [scriptStep] at h
    split at h
    · next g sent script todo rest ht =>
      split at h
      · next server hserver =>
        split at h
        · cases h
          exact .load ht hserver (.inl rfl)
        · cases h
          exact .load ht hserver (.inr rfl)
      · cases h
    · cases h
  | cache t =>
    simp only [scriptStep] at h
    split at h
    · next g sent rest ht =>
      cases h
      exact .cache ht
    · cases h
  | fail t =>
    cases h
    exact .fail
  | finish t =>
    simp only [scriptStep] at h
    split at h
    · cases h
      exact .finish
    · cases h
  | restart server =>
    cases h
    exact .restart
  | migrate serving =>
    simp only [scriptStep] at h
    split at h
    · next hmode =>
      cases h
      exact .migrate hmode
    · cases h
  | sync =>
    simp only [scriptStep] at h
    split at h
    · next hmode =>
      cases h
      exact .sync hmode
    · cases h
  | deliver e =>
    simp only [scriptStep] at h
    split at h
    · next he =>
      cases h
      exact .deliver he
    · cases h

/-! A run that nothing interrupts does to the cache what `load_scripts` does. -/

section Alone

open LabelledRuns

variable (cfg : ScriptConfig) {s : ScriptSystem sha1} {t : Nat}

theorem run_loads {g : Group} {rest : List Group} {server : Server} (sent todo : List String)
    (ht : s.loads t = .sending g sent todo rest)
    (hserver : s.serving g.mse.slotOrZero = some server) :
    ∃ s', run (scriptStep cfg) s (todo.map fun _ => .load t true) = some s' ∧
      s'.caches = s.caches ∧ s'.loads t = .sending g (sent ++ todo) [] rest ∧
      s'.scripts server = s.scripts server ∪ (todo.map sha1).toFinset := by
  induction todo generalizing s sent with
  | nil => exact ⟨s, rfl, rfl, by simpa using ht, by simp⟩
  | cons script todo ih =>
    have hstep : scriptStep cfg s (.load t true) = some ((s.addScript server (sha1 script)).setLoad t
        (.sending g (sent ++ [script]) todo rest)) := by
      simp [scriptStep, ht, hserver]
    have hnext : ((s.addScript server (sha1 script)).setLoad t
        (.sending g (sent ++ [script]) todo rest)).loads t =
          .sending g (sent ++ [script]) todo rest := by
      simp [ScriptSystem.setLoad]
    obtain ⟨s', hrun, hcaches, hload, hscripts⟩ := ih (sent ++ [script]) hnext hserver
    refine ⟨s', ?_, hcaches, by simpa using hload, ?_⟩
    · rw [List.map_cons, run_cons]
      exact ⟨_, hstep, hrun⟩
    · rw [hscripts]
      simp [ScriptSystem.setLoad, ScriptSystem.addScript]

def loadEvents (t i : Nat) (toLoad : List String) : List ScriptEvent :=
  .check t i :: if toLoad.isEmpty then [] else toLoad.map (fun _ => .load t true) ++ [.cache t]

theorem run_loadGroup {groups : List Group} {i : Nat} {g : Group} {server : Server}
    {loadReply : Nat → Reply} {log : List (Slot × String)} (ht : s.loads t = .loading groups)
    (hg : groups[i]? = some g) (hserver : s.serving g.mse.slotOrZero = some server)
    (hok : ∀ n, ∃ v, loadReply n = .ok v) :
    ∃ s', run (scriptStep cfg) s
        (loadEvents t i (scriptsToLoad g.mse.primary g.commands s.caches []).1) = some s' ∧
      s'.caches = (loadMissing loadReply g ⟨s.caches, log⟩).2.caches ∧
      s'.loads t = .loading (groups.eraseIdx i) ∧
      s'.scripts server = s.scripts server ∪
        ((scriptsToLoad g.mse.primary g.commands s.caches []).1.map sha1).toFinset := by
  cases hload : scriptsToLoad g.mse.primary g.commands s.caches [] with
  | mk toLoad caches =>
    by_cases hempty : toLoad.isEmpty = true
    · have hnil : toLoad = [] := List.isEmpty_iff.mp hempty
      refine ⟨{ s with caches }.setLoad t (.loading (groups.eraseIdx i)), ?_, ?_, ?_, ?_⟩
      · simp [loadEvents, hempty, run, scriptStep, ht, hg, hload]
      · simp [loadMissing, hload, hempty, ScriptSystem.setLoad]
      · simp [ScriptSystem.setLoad]
      · simp [ScriptSystem.setLoad, hnil]
    · have hcheck : scriptStep cfg s (.check t i) =
          some ({ s with caches }.setLoad t (.sending g [] toLoad (groups.eraseIdx i))) := by
        simp [scriptStep, ht, hg, hload, hempty]
      have hsending : ({ s with caches }.setLoad t
          (.sending g [] toLoad (groups.eraseIdx i))).loads t =
            .sending g [] toLoad (groups.eraseIdx i) := by
        simp [ScriptSystem.setLoad]
      obtain ⟨s', hrun, hcaches, hsent, hscripts⟩ := run_loads cfg [] toLoad hsending hserver
      have hdone : scriptStep cfg s' (.cache t) = some ({ s' with
          caches := s'.caches.cacheScripts g.mse.primary toLoad }.setLoad t
            (.loading (groups.eraseIdx i))) := by
        simp [scriptStep, hsent]
      have hevents : loadEvents t i toLoad =
          .check t i :: (toLoad.map (fun _ => .load t true) ++ [.cache t]) := by
        simp [loadEvents, hempty]
      refine ⟨{ s' with caches := s'.caches.cacheScripts g.mse.primary toLoad }.setLoad t
        (.loading (groups.eraseIdx i)), ?_, ?_, ?_, ?_⟩
      · rw [hevents, run_cons]
        refine ⟨_, hcheck, ?_⟩
        rw [run_append, hrun]
        simp [run, hdone]
      · have hsend := sendLoads_ok hok g.mse.slotOrZero toLoad ⟨caches, log⟩
        simp [loadMissing, hload, hempty, hsend, ScriptSystem.setLoad, hcaches]
      · simp [ScriptSystem.setLoad]
      · simpa [ScriptSystem.setLoad] using hscripts

end Alone

end Redisson
