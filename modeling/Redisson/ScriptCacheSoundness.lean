import Redisson.ScriptCacheSystem

/-! When `SCRIPT_SHA_CACHE` can be trusted: as long as each loss of scripts is followed by a
clear of the right entry, and no clear comes between SCRIPT LOAD and `cache_scripts`. -/

namespace Redisson

open LabelledRuns

variable {sha1 : String → String}

def LoadRun.groups : LoadRun → List Group
  | .grouping groups | .loading groups => groups
  | .sending g _ _ rest => g :: rest

/-- The run has loaded the script for the entry and is going to tell the cache. -/
def LoadRun.Sent : LoadRun → Server → String → Prop
  | .sending g sent _ _, server, script => g.mse.primary = server ∧ script ∈ sent
  | .grouping _, _, _ | .loading _, _, _ => False

def ServerEvent.Clears : ServerEvent → Server → Prop
  | .reconnect cleared, server => cleared = server
  | .clusterChange, _ => True

theorem ScriptCaches.knows_onEvent {c : ScriptCaches sha1} {e : ServerEvent} {server : Server}
    {sha : String} (h : (c.onEvent e).Knows server sha) : c.Knows server sha ∧ ¬ e.Clears server := by
  cases e with
  | reconnect cleared =>
    by_cases hs : cleared = server
    · simp [onEvent, Knows, hs] at h
    · refine ⟨?_, hs⟩
      simpa [onEvent, Knows, AList.lookup_erase_ne (Ne.symm hs)] using h
  | clusterChange => simp [onEvent, Knows] at h

namespace ScriptSystem

section Soundness

variable (cfg : ScriptConfig) (s : ScriptSystem sha1)

/-- No event is undelivered, a migration that the client has yet to notice among them, and no
load is in progress. -/
def Quiescent : Prop := s.undelivered = [] ∧ s.synced = true ∧ ∀ t, s.loads t = .idle

def CacheSound : Prop :=
  ∀ slot mse script, (s.topology cfg).getWriteEntry slot = some mse →
    (s.caches.isCached mse.primary script).1 = true →
    ∃ server, s.serving mse.slotOrZero = some server ∧ sha1 script ∈ s.scripts server

/-- The node that a key of the cache stands for. Outside cluster mode there is just one. -/
def home (server : Server) : Option Server :=
  if cfg.mode = .cluster then some server else s.serving 0

def OnNode (server : Server) (sha : String) : Prop :=
  ∃ node, s.home cfg server = some node ∧ sha ∈ s.scripts node

def ChangePending : Prop := s.synced = false ∨ .clusterChange ∈ s.undelivered

def ClearPending (server : Server) : Prop := s.ChangePending ∨ .reconnect server ∈ s.undelivered

def Homed (mse : MasterSlaveEntry) : Prop := s.serving mse.slotOrZero = s.home cfg mse.primary

def Holds (mse : MasterSlaveEntry) : Prop := ∃ t, ∃ g ∈ (s.loads t).groups, g.mse = mse

/-- The cache says that a node has a script, or is about to. -/
def Claims (server : Server) (sha : String) : Prop :=
  s.caches.Knows server sha ∨ ∃ t, ∃ script, (s.loads t).Sent server script ∧ sha1 script = sha

structure EntryOk (mse : MasterSlaveEntry) : Prop where
  named : cfg.mode ≠ .cluster → cfg.hosts.head? = some mse.primary
  homed : s.Homed cfg mse ∨ s.ChangePending

structure ClaimOk (server : Server) (sha : String) : Prop where
  named : cfg.mode ≠ .cluster → cfg.hosts.head? = some server
  held : s.OnNode cfg server sha ∨ s.ClearPending server

structure Coherent : Prop where
  oneNode : cfg.mode ≠ .cluster → s.clusterState = none ∧ ∀ slot, s.serving slot = s.serving 0
  table : cfg.mode = .cluster → ∃ table, s.clusterState = some table ∧
    (s.synced = true → table = s.serving)
  entries : ∀ mse, s.Holds mse → s.EntryOk cfg mse
  claims : ∀ server sha, s.Claims server sha → s.ClaimOk cfg server sha

/-- A node restarts only where commands are grouped under its real address. An event comes only
where each load it overtakes still has its scripts on the node, and a cluster change only where
the groups at hand are still served by the nodes they were made for, unless another event that
clears the entry is to come. -/
def ClearsInTime : ScriptEvent → Prop
  | .restart server =>
    cfg.mode ≠ .cluster → s.serving 0 = some server → ∀ h, cfg.hosts.head? = some h → h = server
  | .deliver e =>
    (e = .clusterChange → ∀ mse, s.Holds mse → s.Homed cfg mse ∨ (s.delivered e).ChangePending) ∧
      ∀ t server script, (s.loads t).Sent server script → e.Clears server →
        s.OnNode cfg server (sha1 script) ∨ (s.delivered e).ClearPending server
  | _ => True

end Soundness

section Steps

variable {cfg : ScriptConfig} {s s' : ScriptSystem sha1} {t : Nat} {r : LoadRun}

theorem holds_of_mem {g : Group} (ht : s.loads t = r) (hg : g ∈ r.groups) : s.Holds g.mse :=
  ⟨t, g, by rwa [ht], rfl⟩

theorem claims_of_sent {server : Server} {script : String} (ht : s.loads t = r)
    (hsent : r.Sent server script) : s.Claims server (sha1 script) :=
  .inr ⟨t, script, by rwa [ht], rfl⟩

theorem holds_setLoad {mse : MasterSlaveEntry} (h : (s.setLoad t r).Holds mse) :
    (∃ g ∈ r.groups, g.mse = mse) ∨ s.Holds mse :=
  @of_exists_update LoadRun (fun x => ∃ g ∈ x.groups, g.mse = mse) s.loads t r h

theorem claims_setLoad {server : Server} {sha : String} (h : (s.setLoad t r).Claims server sha) :
    (∃ script, r.Sent server script ∧ sha1 script = sha) ∨ s.Claims server sha := by
  cases h with
  | inl h => exact .inr (.inl h)
  | inr h =>
    have hh := @of_exists_update LoadRun
      (fun x => ∃ script, x.Sent server script ∧ sha1 script = sha) s.loads t r h
    exact hh.imp_right .inr

/-- A step of a run, which leaves the events and the topology alone. -/
theorem Coherent.of_run (hs : s.Coherent cfg) {caches : ScriptCaches sha1}
    {scripts : Server → Finset String} (hscripts : ∀ n, s.scripts n ⊆ scripts n)
    (hs' : s' = { s with caches, scripts }.setLoad t r)
    (hgroups : ∀ g ∈ r.groups, s.Holds g.mse ∨ s.EntryOk cfg g.mse)
    (hknows : ∀ server sha, caches.Knows server sha → s.Claims server sha)
    (hsent : ∀ server script, r.Sent server script →
      s.Claims server (sha1 script) ∨ s'.ClaimOk cfg server (sha1 script)) :
    s'.Coherent cfg := by
  have hkeep : ∀ server sha, s.ClaimOk cfg server sha → s'.ClaimOk cfg server sha := by
    intro server sha hclaim
    refine ⟨hclaim.named, ?_⟩
    subst hs'
    refine hclaim.held.imp_left fun ⟨node, hnode, hsha⟩ => ?_
    exact ⟨node, hnode, hscripts node hsha⟩
  constructor
  · subst hs'
    exact hs.oneNode
  · subst hs'
    exact hs.table
  · intro mse hmse
    have hok : s.EntryOk cfg mse := by
      subst hs'
      rcases holds_setLoad hmse with ⟨g, hg, rfl⟩ | hold
      · exact (hgroups g hg).elim (hs.entries _) id
      · exact hs.entries mse hold
    subst hs'
    exact ⟨hok.named, hok.homed⟩
  · intro server sha hclaim
    have hcases : (∃ script, r.Sent server script ∧ sha1 script = sha) ∨ s.Claims server sha := by
      subst hs'
      refine (claims_setLoad hclaim).imp_right fun h => ?_
      exact h.elim (hknows server sha) .inr
    rcases hcases with ⟨script, hscript, rfl⟩ | hold
    · exact (hsent server script hscript).elim (fun h => hkeep _ _ (hs.claims _ _ h)) id
    · exact hkeep _ _ (hs.claims _ _ hold)

theorem entryOk_of_getWriteEntry (hs : s.Coherent cfg) {slot : Slot} {mse : MasterSlaveEntry}
    (h : (s.topology cfg).getWriteEntry slot = some mse) : s.EntryOk cfg mse := by
  by_cases hmode : cfg.mode = .cluster
  · obtain ⟨table, htable, hsynced⟩ := hs.table hmode
    obtain ⟨server, hserver, rfl⟩ : ∃ server, table slot = some server ∧ ⟨server, some slot⟩ = mse := by
      simpa [topology, Topology.getWriteEntry, htable] using h
    refine ⟨fun hh => absurd hmode hh, ?_⟩
    cases hc : s.synced with
    | false => exact .inr (.inl hc)
    | true =>
      have hserving : s.serving slot = some server := hsynced hc ▸ hserver
      exact .inl (by simp [Homed, home, hmode, MasterSlaveEntry.slotOrZero, hserving])
  · obtain ⟨hstate, hserving⟩ := hs.oneNode hmode
    obtain ⟨server, hserver, rfl⟩ : ∃ server, cfg.hosts.head? = some server ∧ ⟨server, none⟩ = mse := by
      simpa [topology, Topology.getWriteEntry, hstate] using h
    exact ⟨fun _ => hserver, .inl (by simp [Homed, home, hmode, hserving])⟩

theorem new_coherent (serving : Slot → Option Server) (scripts : Server → Finset String) :
    (new cfg serving scripts : ScriptSystem sha1).Coherent cfg := by
  constructor
  · intro hmode
    simp [new, hmode]
  · intro hmode
    exact ⟨serving, by simp [new, hmode]⟩
  · rintro mse ⟨t, g, hg, -⟩
    simp [new, LoadRun.idle, LoadRun.groups] at hg
  · rintro server sha (hknows | ⟨t, script, hsent, -⟩)
    · simp [new, ScriptCaches.empty, ScriptCaches.Knows] at hknows
    · exact hsent.elim

theorem Coherent.resolve (hs : s.Coherent cfg) {d : BatchCommandData} {groups : List Group}
    {mse : MasterSlaveEntry} (ht : s.loads t = .grouping groups)
    (hentry : (s.topology cfg).getWriteEntry (d.slot cfg.keyslot) = some mse) :
    (s.setLoad t (.grouping (addToNode groups mse d))).Coherent cfg := by
  refine hs.of_run (fun _ => Finset.Subset.refl _) rfl ?_ (fun _ _ h => .inl h) (fun _ _ h => h.elim)
  refine forall_addToNode (fun g hg => ?_) (.inr (entryOk_of_getWriteEntry hs hentry))
    (fun g _ hg _ => hg)
  exact .inl (holds_of_mem ht hg)

theorem Coherent.check (hs : s.Coherent cfg) {i : Nat} {groups : List Group} {g : Group}
    {caches : ScriptCaches sha1} (ht : s.loads t = .loading groups) (hg : groups[i]? = some g)
    (hcaches : caches.scriptShaCache = s.caches.scriptShaCache)
    (hr : r = .loading (groups.eraseIdx i) ∨ ∃ toLoad, r = .sending g [] toLoad (groups.eraseIdx i)) :
    ({ s with caches }.setLoad t r).Coherent cfg := by
  have hrest : ∀ x ∈ groups.eraseIdx i, s.Holds x.mse := fun x hx =>
    holds_of_mem ht ((List.eraseIdx_sublist groups i).subset hx)
  refine hs.of_run (fun _ => Finset.Subset.refl _) rfl ?_ ?_ ?_
  · intro x hx
    rcases hr with rfl | ⟨toLoad, rfl⟩
    · exact .inl (hrest x hx)
    · rcases List.mem_cons.mp hx with rfl | hx
      · exact .inl (holds_of_mem ht (List.mem_of_getElem? hg))
      · exact .inl (hrest x hx)
  · exact fun server sha h => .inl ((ScriptCaches.knows_congr hcaches).mp h)
  · intro server script hsent
    rcases hr with rfl | ⟨toLoad, rfl⟩
    · exact hsent.elim
    · exact absurd hsent.2 (by simp)

theorem Coherent.load (hs : s.Coherent cfg) {g : Group} {sent todo : List String} {script : String}
    {rest : List Group} {server : Server} (ht : s.loads t = .sending g sent (script :: todo) rest)
    (hserver : s.serving g.mse.slotOrZero = some server)
    (hr : r = .sending g (sent ++ [script]) todo rest ∨ r = .idle) :
    ((s.addScript server (sha1 script)).setLoad t r).Coherent cfg := by
  have hentry := hs.entries g.mse (holds_of_mem ht List.mem_cons_self)
  have hgrow : ∀ n, s.scripts n ⊆ (s.addScript server (sha1 script)).scripts n := by
    intro n x hx
    by_cases hn : n = server
    · subst hn
      simp [addScript, hx]
    · simpa [addScript, hn] using hx
  refine hs.of_run hgrow rfl ?_ (fun _ _ h => .inl h) ?_
  · intro x hx
    rcases hr with rfl | rfl
    · exact .inl (holds_of_mem ht hx)
    · simp [LoadRun.idle, LoadRun.groups] at hx
  · intro key x hsent
    rcases hr with rfl | rfl
    · obtain ⟨rfl, hx⟩ := hsent
      rcases List.mem_append.mp hx with hx | hx
      · exact .inl (claims_of_sent ht ⟨rfl, hx⟩)
      · rw [List.mem_singleton.mp hx]
        refine .inr ⟨hentry.named, hentry.homed.imp (fun hhome => ?_) .inl⟩
        refine ⟨server, hhome.symm.trans hserver, ?_⟩
        simp [setLoad, addScript]
    · exact hsent.elim

theorem Coherent.cache (hs : s.Coherent cfg) {g : Group} {sent : List String} {rest : List Group}
    (ht : s.loads t = .sending g sent [] rest) :
    ({ s with caches := s.caches.cacheScripts g.mse.primary sent }.setLoad t
      (.loading rest)).Coherent cfg := by
  refine hs.of_run (fun _ => Finset.Subset.refl _) rfl (fun x hx => ?_) ?_ (fun _ _ h => h.elim)
  · exact .inl (holds_of_mem ht (List.mem_cons_of_mem g hx))
  · intro server sha h
    rcases (ScriptCaches.knows_cacheScripts sent).mp h with hknown | ⟨rfl, hsha⟩
    · exact .inl hknown
    · obtain ⟨script, hscript, rfl⟩ := List.mem_map.mp hsha
      exact claims_of_sent ht ⟨rfl, hscript⟩

theorem Coherent.idle (hs : s.Coherent cfg) : (s.setLoad t .idle).Coherent cfg := by
  refine hs.of_run (fun _ => Finset.Subset.refl _) rfl (fun x hx => ?_) (fun _ _ h => .inl h)
    (fun _ _ h => h.elim)
  simp [LoadRun.idle, LoadRun.groups] at hx

theorem Coherent.start (hs : s.Coherent cfg) {groups : List Group}
    (ht : s.loads t = .grouping groups) : (s.setLoad t (.loading groups)).Coherent cfg := by
  refine hs.of_run (fun _ => Finset.Subset.refl _) rfl (fun x hx => ?_) (fun _ _ h => .inl h)
    (fun _ _ h => h.elim)
  exact .inl (holds_of_mem ht hx)

theorem ChangePending.mono (h : s.ChangePending) (hsynced : s'.synced = s.synced)
    (hsub : s.undelivered ⊆ s'.undelivered) : s'.ChangePending :=
  h.imp (fun hs => hsynced.trans hs) fun hmem => hsub hmem

theorem ClearPending.mono {server : Server} (h : s.ClearPending server)
    (hsynced : s'.synced = s.synced) (hsub : s.undelivered ⊆ s'.undelivered) :
    s'.ClearPending server :=
  h.imp (fun hc => hc.mono hsynced hsub) fun hmem => hsub hmem

theorem Coherent.restart (hs : s.Coherent cfg) {server : Server}
    (hok : s.ClearsInTime cfg (.restart server)) : (s.restarted server).Coherent cfg := by
  have hsub : s.undelivered ⊆ (s.restarted server).undelivered := List.subset_append_left _ _
  constructor
  · exact hs.oneNode
  · exact hs.table
  · intro mse hmse
    obtain ⟨hnamed, hhomed⟩ := hs.entries mse hmse
    exact ⟨hnamed, hhomed.imp_right fun hc => hc.mono rfl hsub⟩
  · intro key sha hclaim
    obtain ⟨hnamed, hheld⟩ := hs.claims key sha hclaim
    refine ⟨hnamed, ?_⟩
    rcases hheld with ⟨node, hnode, hsha⟩ | hpending
    · by_cases heq : node = server
      · have hkey : key = server := by
          by_cases hmode : cfg.mode = .cluster
          · have hself : key = node := by simpa [home, hmode] using hnode
            exact hself.trans heq
          · have hserves : s.serving 0 = some server := by
              simpa [home, hmode, heq] using hnode
            exact hok hmode hserves key (hnamed hmode)
        exact .inr (.inr (List.mem_append_right _ (by simp [hkey])))
      · exact .inl ⟨node, hnode, by simpa [restarted, heq] using hsha⟩
    · exact .inr (hpending.mono rfl hsub)

theorem Coherent.migrate (hs : s.Coherent cfg) (serving : Slot → Option Server)
    (hmode : cfg.mode = .cluster) : (s.migrated serving).Coherent cfg := by
  have hpending : (s.migrated serving).ChangePending := .inl rfl
  constructor
  · exact fun hh => absurd hmode hh
  · intro _
    obtain ⟨table, htable, -⟩ := hs.table hmode
    exact ⟨table, htable, fun hh => by simp [migrated] at hh⟩
  · exact fun mse hmse => ⟨fun hh => absurd hmode hh, .inr hpending⟩
  · exact fun server sha hclaim => ⟨fun hh => absurd hmode hh, .inr (.inl hpending)⟩

theorem Coherent.sync (hmode : cfg.mode = .cluster) : s.noticed.Coherent cfg := by
  have hpending : s.noticed.ChangePending := .inr (List.mem_append_right _ (by simp))
  constructor
  · exact fun hh => absurd hmode hh
  · exact fun _ => ⟨s.serving, rfl, fun _ => rfl⟩
  · exact fun mse hmse => ⟨fun hh => absurd hmode hh, .inr hpending⟩
  · exact fun server sha hclaim => ⟨fun hh => absurd hmode hh, .inr (.inl hpending)⟩

theorem ClearPending.delivered {e : ServerEvent} {server : Server} (h : s.ClearPending server)
    (he : ¬ e.Clears server) : (s.delivered e).ClearPending server := by
  have hkeep : ∀ e' ∈ s.undelivered, e'.Clears server → e' ∈ (s.delivered e).undelivered := by
    intro e' hmem hclears
    have hne : e' ≠ e := fun heq => he (heq ▸ hclears)
    exact (List.mem_erase_of_ne hne).mpr hmem
  rcases h with (hsynced | hmem) | hmem
  · exact .inl (.inl hsynced)
  · exact .inl (.inr (hkeep _ hmem trivial))
  · exact .inr (hkeep _ hmem rfl)

theorem Coherent.deliver (hs : s.Coherent cfg) {e : ServerEvent}
    (hok : s.ClearsInTime cfg (.deliver e)) : (s.delivered e).Coherent cfg := by
  constructor
  · exact hs.oneNode
  · exact hs.table
  · intro mse hmse
    obtain ⟨hnamed, hhomed⟩ := hs.entries mse hmse
    refine ⟨hnamed, ?_⟩
    cases e with
    | clusterChange => exact hok.1 rfl mse hmse
    | reconnect server =>
      refine hhomed.imp_right fun hc => hc.imp_right fun hmem => ?_
      exact (List.mem_erase_of_ne (by simp)).mpr hmem
  · intro server sha hclaim
    have hold : s.Claims server sha := hclaim.imp_left fun h => (ScriptCaches.knows_onEvent h).1
    obtain ⟨hnamed, hheld⟩ := hs.claims server sha hold
    refine ⟨hnamed, ?_⟩
    by_cases hclears : e.Clears server
    · rcases hclaim with hknows | ⟨t, script, hsent, rfl⟩
      · exact absurd hclears (ScriptCaches.knows_onEvent hknows).2
      · exact hok.2 t server script hsent hclears
    · exact hheld.imp_right fun hp => hp.delivered hclears

theorem Coherent.step (hs : s.Coherent cfg) {e : ScriptEvent} (hok : s.ClearsInTime cfg e)
    (h : scriptStep cfg s e = some s') : s'.Coherent cfg := by
  cases scriptStep_cases h with
  | resolve ht hentry => exact hs.resolve ht hentry
  | start ht => exact hs.start ht
  | check ht hg hcaches hr => exact hs.check ht hg hcaches hr
  | load ht hserver hr => exact hs.load ht hserver hr
  | cache ht => exact hs.cache ht
  | fail | finish => exact hs.idle
  | restart => exact hs.restart hok
  | migrate hmode => exact hs.migrate _ hmode
  | sync hmode => exact .sync hmode
  | deliver he => exact hs.deliver hok

theorem Coherent.sound (hs : s.Coherent cfg) (hquiet : s.Quiescent) : s.CacheSound cfg := by
  intro slot mse script hentry hcached
  obtain ⟨hundelivered, hsynced, -⟩ := hquiet
  have hnochange : ¬ s.ChangePending := by simp [ChangePending, hundelivered, hsynced]
  obtain ⟨-, hhomed⟩ := entryOk_of_getWriteEntry hs hentry
  obtain ⟨-, hheld⟩ := hs.claims mse.primary (sha1 script) (.inl (ScriptCaches.isCached_iff.mp hcached))
  have hhome : s.serving mse.slotOrZero = s.home cfg mse.primary := hhomed.resolve_right hnochange
  obtain ⟨node, hnode, hsha⟩ := hheld.resolve_right (by simp [ClearPending, hnochange, hundelivered])
  exact ⟨node, hhome.trans hnode, hsha⟩

end Steps

end ScriptSystem

open ScriptSystem

/-! One node with one script, and another host. -/

def evalCommand : BatchCommandData := ⟨.eval "script" [] [], 0⟩

def redisNode : Server := ⟨"node", 6379⟩

def sentinelNode : Server := ⟨"sentinel", 26379⟩

def oneNodeConfig (mode : ServerMode) (host : Server) : ScriptConfig := ⟨mode, [host], fun _ => 0⟩

def oneNode (mode : ServerMode) (host : Server) : ScriptSystem fun script => script :=
  new (oneNodeConfig mode host) (fun _ => some redisNode) fun _ => ∅

def clearedTooEarly : List ScriptEvent :=
  [.resolve 0 evalCommand, .start 0, .check 0 0, .load 0 true, .restart redisNode,
    .deliver (.reconnect redisNode), .cache 0, .finish 0]

def clearedElsewhere : List ScriptEvent :=
  [.resolve 0 evalCommand, .start 0, .check 0 0, .load 0 true, .cache 0, .finish 0,
    .restart redisNode, .deliver (.reconnect redisNode)]

def otherCleared : List ScriptEvent :=
  [.resolve 0 evalCommand, .start 0, .check 0 0, .load 0 true, .restart sentinelNode,
    .deliver (.reconnect sentinelNode), .cache 0, .finish 0]

theorem cacheSound_of_clearsInTime {cfg : ScriptConfig} {serving : Slot → Option Server}
    {scripts : Server → Finset String} {events : List ScriptEvent} {s : ScriptSystem sha1}
    (h : GuardedRun (scriptStep cfg) (ClearsInTime cfg) (new cfg serving scripts) events s)
    (hquiet : s.Quiescent) : s.CacheSound cfg := by
  have hcoherent := h.invariant (fun _ _ _ hs hok hstep => Coherent.step hs hok hstep)
    (new_coherent serving scripts)
  exact hcoherent.sound hquiet

theorem cacheSound_of_clearsInTime_cluster : ∃ s,
    run (scriptStep (oneNodeConfig .cluster redisNode)) (oneNode .cluster redisNode) otherCleared =
      some s ∧
    (s.caches.isCached redisNode "script").1 = true ∧
    s.CacheSound (oneNodeConfig .cluster redisNode) := by
  refine ⟨_, rfl, by decide, @cacheSound_of_clearsInTime _ (oneNodeConfig .cluster redisNode)
    (fun _ => some redisNode) (fun _ => ∅) otherCleared _
    ⟨trivial, _, rfl, trivial, _, rfl, trivial, _, rfl, trivial, _, rfl, ?_, _, rfl, ?_, _, rfl,
      trivial, _, rfl, trivial, _, rfl, rfl⟩ ⟨rfl, rfl, fun t => ?_⟩⟩
  · exact fun hmode => absurd rfl hmode
  · refine ⟨by simp, fun t server script hsent hclears => ?_⟩
    by_cases ht : t = 0
    · subst ht
      have hnode : redisNode = server := hsent.1
      exact absurd (hnode.trans hclears.symm) (by decide)
    · simp [setLoad, addScript, restarted, new, ht, LoadRun.idle, LoadRun.Sent] at hsent
  · simp [setLoad, addScript, restarted, delivered, oneNode, new]

/-- A clear between SCRIPT LOAD and `cache_scripts` is lost; and behind a sentinel the clear is of
another address than the entry's. -/
theorem scriptCache_unsound :
    (∃ s, run (scriptStep (oneNodeConfig .standalone redisNode)) (oneNode .standalone redisNode)
      clearedTooEarly = some s ∧ s.Quiescent ∧ ¬ s.CacheSound (oneNodeConfig .standalone redisNode)) ∧
    ∃ s, run (scriptStep (oneNodeConfig .sentinel sentinelNode)) (oneNode .sentinel sentinelNode)
      clearedElsewhere = some s ∧ s.Quiescent ∧
        ¬ s.CacheSound (oneNodeConfig .sentinel sentinelNode) := by
  constructor
  · refine ⟨_, rfl, ⟨rfl, rfl, fun t => ?_⟩, fun hsound => ?_⟩
    · simp [setLoad, addScript, restarted, delivered, oneNode, new]
    · obtain ⟨server, hserver, hsha⟩ := hsound 0 ⟨redisNode, none⟩ "script" rfl (by decide)
      cases hserver
      exact absurd hsha (by decide)
  · refine ⟨_, rfl, ⟨rfl, rfl, fun t => ?_⟩, fun hsound => ?_⟩
    · simp [setLoad, addScript, restarted, delivered, oneNode, new]
    · obtain ⟨server, hserver, hsha⟩ := hsound 0 ⟨sentinelNode, none⟩ "script" rfl (by decide)
      cases hserver
      exact absurd hsha (by decide)

end Redisson
