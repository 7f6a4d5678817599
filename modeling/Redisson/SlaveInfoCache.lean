import Redisson.SyncedEvalRace
import Redisson.SyncedPlan

/-! `SLAVE_INFO_CACHE` through a run of `synced_eval` calls, between which replicas connect to
and leave the primaries. -/

namespace Redisson

open LabelledRuns

abbrev SlaveInfo := AList (fun _ : Server => ReplicationInfo)

/-- A call of `synced_eval`: what it finds apart from the slave info, and what happens to the
batch that it may come to. -/
structure SyncedCall (sha1 : String → String) where
  svc : AsyncService sha1
  world : World sha1
  mode : SyncMode
  retry : Bool
  script : String
  keys : List Key
  args : List Value
  slavesSyncTimeout : Nat
  checkLockSyncedSlaves : Bool
  batchRetryAttempts : Nat
  useScriptCache : Bool
  readMode : ReadMode
  events : List (EvalEvent sha1)

def invalidateSlaveInfo (clusterNode : Option Server) (slaveInfo : SlaveInfo) : SlaveInfo :=
  match clusterNode with
  | some node => slaveInfo.erase node
  | none => slaveInfo

namespace SyncedCall

variable {sha1 : String → String} (c : SyncedCall sha1)

def enter (slaveInfo : SlaveInfo) : World sha1 := { c.world with slaveInfo }

def plan (slaveInfo : SlaveInfo) : SyncedPlan × World sha1 :=
  c.svc.syncedPlan c.mode c.retry c.script c.keys c.args (c.enter slaveInfo)

def eval (useAof : Bool) (availableSlaves : Int) (waits : availableSlaves ≠ 0 ∨ useAof = true) :
    SyncedEval :=
  ⟨c.script, c.keys, c.args, useAof, availableSlaves, c.slavesSyncTimeout,
    c.checkLockSyncedSlaves, c.batchRetryAttempts, c.useScriptCache, c.readMode, waits⟩

/-- What the call returns and the slave info that it leaves, if it comes to an end. -/
def perform (slaveInfo : SlaveInfo) : Option (Reply × SlaveInfo) :=
  match c.plan slaveInfo with
  | (.answered r, w) => some (r, w.slaveInfo)
  | (.batch useAof availableSlaves clusterNode waits, w) =>
    (run (evalStep (c.eval useAof availableSlaves waits)) .new c.events).bind fun s =>
      match s.caller with
      | .returned r =>
        some (r, if s.slaveInfoInvalidated then invalidateSlaveInfo clusterNode w.slaveInfo
          else w.slaveInfo)
      | _ => none

def Consults (slaveInfo : SlaveInfo) (node : Server) (support : WaitSupport) : Prop :=
  c.svc.Consults c.mode c.keys (c.enter slaveInfo) node support

/-- The call goes by a cached number of replicas, WAIT being supported and AOF off. -/
def UsesCached (slaveInfo : SlaveInfo) (node : Server) (connectedSlaves : Int) : Prop :=
  (∃ support, c.Consults slaveInfo node support ∧ support.wait = true) ∧
    c.mode ≠ .waitAof ∧ slaveInfo.lookup node = some ⟨connectedSlaves, false⟩

def QueriesInfo (slaveInfo : SlaveInfo) : Prop :=
  ∃ sent, c.world.sent <+: sent ∧
    sent ++ [c.svc.infoCall c.keys] <+: (c.plan slaveInfo).2.sent

/-- The node to which the batch goes answers WAIT with `n`. -/
def WaitAnswers (ev : SyncedEval) (env : Environment sha1) (n : Int) : Prop :=
  ∃ i g, prepare ev.batch env (ev.queue i) = .ok [g] ∧
    extractSyncedSlaves (some (env.reply g.mse.primary 1)) = n

end SyncedCall

/-- The cached replica counts, and how many replicas each node has. -/
structure ReplicaState where
  slaveInfo : SlaveInfo
  replicas : Server → Nat

inductive ReplicaEvent (sha1 : String → String)
  | change (node : Server) (n : Nat)
  | call (c : SyncedCall sha1)

section Steps

variable {sha1 : String → String}

def replicaStep (s : ReplicaState) : ReplicaEvent sha1 → Option ReplicaState
  | .change node n => some { s with replicas := Function.update s.replicas node n }
  | .call c => (c.perform s.slaveInfo).map fun (_, slaveInfo) => { s with slaveInfo }

def ReplicaEvent.Consults (s : ReplicaState) (node : Server) : ReplicaEvent sha1 → Prop
  | .change .. => False
  | .call c => ∃ support, c.Consults s.slaveInfo node support

/-- The cached count of the node is gone, and the next call that needs it asks the node. -/
structure Forgotten (sha1 : String → String) (s : ReplicaState) (node : Server) : Prop where
  absent : s.slaveInfo.lookup node = none
  queried : ∀ (es : List (ReplicaEvent sha1)) (t : ReplicaState),
    GuardedRun replicaStep (fun s e => ¬ e.Consults s node) s es t →
    ∀ (c : SyncedCall sha1) (support : WaitSupport), c.Consults t.slaveInfo node support →
      c.QueriesInfo t.slaveInfo

/-- A cached count that differs from the number of replicas does not survive a call that uses
it and returns Ok. -/
def DropsStale (s : ReplicaState) : ReplicaEvent sha1 → Prop
  | .change .. => True
  | .call c => ∀ node v r slaveInfo, c.UsesCached s.slaveInfo node v → v ≠ s.replicas node →
    c.perform s.slaveInfo = some (.ok r, slaveInfo) → Forgotten sha1 { s with slaveInfo } node

/-- A stale count is not 0, and not what WAIT answers. -/
def Detects (s : ReplicaState) : ReplicaEvent sha1 → Prop
  | .change .. => True
  | .call c => ∀ node v, c.UsesCached s.slaveInfo node v → v ≠ s.replicas node →
    ∃ h : v ≠ 0, ∀ env sched, .complete env sched ∈ c.events →
      ¬ SyncedCall.WaitAnswers (c.eval false v (.inl h)) env v

end Steps

namespace SyncedCall

variable {sha1 : String → String} {c : SyncedCall sha1} {slaveInfo slaveInfo' : SlaveInfo}
  {node : Server} {support : WaitSupport} {v : Int} {r : Reply}

theorem queriesInfo (h : c.Consults slaveInfo node support) (hn : slaveInfo.lookup node = none) :
    c.QueriesInfo slaveInfo :=
  ⟨_, (AsyncService.probeWaitSupport_extends _ (c.enter slaveInfo)).sent,
    AsyncService.Consults.plan_queries h hn⟩

theorem lookup_invalidate {clusterNode : Option Server} (h : clusterNode ≠ some node) :
    (invalidateSlaveInfo clusterNode slaveInfo).lookup node = slaveInfo.lookup node := by
  cases clusterNode with
  | none => rfl
  | some other => exact AList.lookup_erase_ne fun hh => h (congrArg some hh.symm)

theorem perform_batch {useAof : Bool} {clusterNode : Option Server}
    {waits : v ≠ 0 ∨ useAof = true} {w : World sha1}
    (hp : c.plan slaveInfo = (.batch useAof v clusterNode waits, w))
    (h : c.perform slaveInfo = some (r, slaveInfo')) :
    ∃ s, run (evalStep (c.eval useAof v waits)) .new c.events = some s ∧ s.caller = .returned r ∧
      slaveInfo' = if s.slaveInfoInvalidated then invalidateSlaveInfo clusterNode w.slaveInfo
        else w.slaveInfo := by
  simp only [perform, hp, Option.bind_eq_some_iff] at h
  obtain ⟨s, hs, hend⟩ := h
  cases hc : s.caller with
  | returned r' =>
    simp only [hc, Option.some.injEq, Prod.mk.injEq] at hend
    exact ⟨s, hs, by rw [hc, hend.1], hend.2.symm⟩
  | _ => simp [hc] at hend

theorem perform_frame (hc : ∀ support, ¬ c.Consults slaveInfo node support)
    (h : c.perform slaveInfo = some (r, slaveInfo')) :
    slaveInfo'.lookup node = slaveInfo.lookup node := by
  obtain ⟨hkept, hother⟩ := @AsyncService.syncedPlan_frame _ c.svc c.mode c.retry c.script c.keys
    c.args node (c.enter slaveInfo) hc
  cases hp : c.plan slaveInfo with
  | mk planned w =>
    have hw : w.slaveInfo.lookup node = slaveInfo.lookup node :=
      (congrArg (·.2.slaveInfo.lookup node) hp).symm.trans hkept
    cases planned with
    | answered r' =>
      simp only [perform, hp, Option.some.injEq, Prod.mk.injEq] at h
      rw [← h.2, hw]
    | batch useAof v clusterNode waits =>
      have hne := hother useAof v clusterNode waits (congrArg Prod.fst hp)
      obtain ⟨s, -, -, rfl⟩ := perform_batch hp h
      split
      · rw [lookup_invalidate hne, hw]
      · exact hw

/-- A cached count other than 0 becomes the number of replicas to wait for. -/
theorem plan_cached (h : c.UsesCached slaveInfo node v) (hv : v ≠ 0) :
    ∃ w, w.slaveInfo = slaveInfo ∧ c.plan slaveInfo = (.batch false v (some node) (.inl hv), w) := by
  obtain ⟨⟨support, hc, hw⟩, -, hl⟩ := h
  have hslaves : AsyncService.slavesToWaitFor support ⟨v, false⟩ = v := by
    simp [AsyncService.slavesToWaitFor, hw]
  have haof : AsyncService.usesAof c.mode support ⟨v, false⟩ = false := by
    simp [AsyncService.usesAof]
  have hwaits : ¬ (AsyncService.slavesToWaitFor support ⟨v, false⟩ = 0 &&
      !AsyncService.usesAof c.mode support ⟨v, false⟩) = true := by simp [hslaves, hv]
  have hplan : c.plan slaveInfo = _ :=
    (AsyncService.Consults.plan_cached hc hl).trans (AsyncService.planFor_waits hwaits)
  have hkept := (@AsyncService.probeWaitSupport_extends _ c.svc (c.svc.nodeOptions c.keys)
    (c.enter slaveInfo)).slaveInfo
  refine ⟨_, hkept, ?_⟩
  rw [hplan]
  simp only [hslaves, haof, hc.routed]

/-- Over a cached count of 0 the function is left before anything is compared. -/
theorem perform_zero (hc : c.Consults slaveInfo node support)
    (hl : slaveInfo.lookup node = some ⟨0, false⟩)
    (h : c.perform slaveInfo = some (r, slaveInfo')) : slaveInfo' = slaveInfo := by
  have hidle : (AsyncService.slavesToWaitFor support ⟨0, false⟩ = 0 &&
      !AsyncService.usesAof c.mode support ⟨0, false⟩) = true := by
    simp [AsyncService.slavesToWaitFor, AsyncService.usesAof]
  have hplan : c.plan slaveInfo = c.svc.answerWriteFallback c.retry c.script c.keys c.args _ :=
    (AsyncService.Consults.plan_cached hc hl).trans (AsyncService.planFor_idle hidle)
  have hkept : (c.plan slaveInfo).2.slaveInfo = slaveInfo := by
    rw [hplan]
    exact ((AsyncService.probeWaitSupport_extends _ (c.enter slaveInfo)).trans
      (AsyncService.answerWriteFallback_extends _ _ _ _ _)).slaveInfo
  rw [hplan] at hkept
  simp only [perform, hplan, AsyncService.answerWriteFallback, Option.some.injEq, Prod.mk.injEq] at h hkept
  exact h.2.symm.trans hkept

end SyncedCall

section Invalidation

variable {sha1 : String → String} {ev : SyncedEval}

/-- A batch that has succeeded has been found to disagree with the count. -/
def Noticed (s : EvalState) : Prop :=
  s.caller = .awaiting ∨ (∃ v, s.caller = .returned (.ok v)) → s.slaveInfoInvalidated = true

theorem Noticed.afterExecute {s : EvalState} {result : Except Error BatchResult}
    (h : ∀ r, result = .ok r → r.syncedSlaves ≠ ev.availableSlaves) :
    Noticed (s.afterExecute ev result) := by
  cases result with
  | error e =>
    cases hn : !s.scriptLoaded && e.contains "NOSCRIPT" <;> simp [Noticed, EvalState.afterExecute, hn]
  | ok r =>
    intro _
    simp only [EvalState.afterExecute]
    split <;> simp [h r rfl]

theorem Noticed.step {s s' : EvalState} {e : EvalEvent sha1} (hv : ev.availableSlaves ≠ 0)
    (h : Noticed s) (hok : ∀ env sched, e = .complete env sched →
      ¬ SyncedCall.WaitAnswers ev env ev.availableSlaves)
    (hs : evalStep ev s e = some s') : Noticed s' := by
  have hbatch : ∀ b, s.inBatch b = some s' → Noticed s' := by
    intro b hb
    obtain ⟨b', -, rfl⟩ := inBatch_some hb
    exact h
  cases e with
  | fetchIndex | push | compareExchange | drain => exact hbatch _ hs
  | complete env sched =>
    simp only [evalStep] at hs
    split at hs
    · next p hm ht =>
      cases hs
      refine Noticed.afterExecute fun r hr => ?_
      obtain ⟨g, hg, hsynced⟩ := execution_synced hr
      rw [hsynced]
      split
      · exact fun heq => hok env sched rfl ⟨_, g, hg, heq⟩
      · exact hv.symm
    · cases hs
      refine Noticed.afterExecute fun r hr => ?_
      cases hr
      exact fun hh => hv hh.symm
    · cases hs
  | reload r =>
    simp only [evalStep] at hs
    split at hs
    · cases hs
      simp [Noticed]
    · cases hs
      simp [Noticed]
    · cases hs
  | join =>
    simp only [evalStep] at hs
    split at hs
    · next r hm hr =>
      cases hs
      exact fun _ => h (.inl hm)
    · cases hs

end Invalidation

section Runs

variable {sha1 : String → String} {s t : ReplicaState} {es : List (ReplicaEvent sha1)}
  {e : ReplicaEvent sha1} {node : Server}

theorem replicaStep_call {c : SyncedCall sha1} (h : replicaStep s (.call c) = some t) :
    ∃ r slaveInfo, c.perform s.slaveInfo = some (r, slaveInfo) ∧ t = { s with slaveInfo } := by
  obtain ⟨⟨r, slaveInfo⟩, hp, rfl⟩ := Option.map_eq_some_iff.mp h
  exact ⟨r, slaveInfo, hp, rfl⟩

/-- Only a call that comes to the slave info of a node changes it. -/
theorem replicaStep_frame (hc : ¬ e.Consults s node) (h : replicaStep s e = some t) :
    t.slaveInfo.lookup node = s.slaveInfo.lookup node := by
  cases e with
  | change other n =>
    cases h
    rfl
  | call c =>
    obtain ⟨r, slaveInfo, hp, rfl⟩ := replicaStep_call h
    exact SyncedCall.perform_frame (fun support hh => hc ⟨support, hh⟩) hp

theorem forgotten_of_absent (h : s.slaveInfo.lookup node = none) : Forgotten sha1 s node where
  absent := h
  queried es t hr c support hc := by
    have hstep : ∀ (s : ReplicaState) (e : ReplicaEvent sha1) m, s.slaveInfo.lookup node = none →
        ¬ e.Consults s node → replicaStep s e = some m → m.slaveInfo.lookup node = none :=
      fun _ _ _ hn hok hs => (replicaStep_frame hok hs).trans hn
    have habsent := hr.invariant hstep h
    exact SyncedCall.queriesInfo hc habsent

theorem dropsStale_of_detects (h : Detects s e) : DropsStale s e := by
  cases e with
  | change other n => trivial
  | call c =>
    intro node v r slaveInfo hused hstale hp
    obtain ⟨hv, hwait⟩ := h node v hused hstale
    obtain ⟨w, hw, hplan⟩ := SyncedCall.plan_cached hused hv
    obtain ⟨s', hrun, hcaller, rfl⟩ := SyncedCall.perform_batch hplan hp
    -- an Ok follows a comparison with what WAIT has answered, whatever else happens to the batch
    have hnoticed : Noticed s' := by
      have hguarded := guardedRun_of_forall (P := fun e => ∀ env sched, e = .complete env sched →
        ¬ SyncedCall.WaitAnswers (c.eval false v (.inl hv)) env v) (by
          rintro _ he env sched rfl
          exact hwait env sched he) hrun
      refine hguarded.invariant (fun _ _ _ hn hok hs => hn.step hv hok hs) ?_
      simp [Noticed, EvalState.new]
    have hinvalidated : s'.slaveInfoInvalidated = true := hnoticed (.inr ⟨r, hcaller⟩)
    apply forgotten_of_absent
    simp [hinvalidated, invalidateSlaveInfo]

/-- In a run in which every stale count is one that WAIT gives away, none survives its use. -/
theorem dropsStale_run (h : GuardedRun replicaStep Detects s es t) :
    GuardedRun replicaStep DropsStale s es t :=
  h.mono fun _ _ => dropsStale_of_detects

/-- A cached 0 stays, however many replicas connect and whatever is called. -/
theorem zero_survives (h0 : s.slaveInfo.lookup node = some ⟨0, false⟩)
    (h : run replicaStep s es = some t) : t.slaveInfo.lookup node = some ⟨0, false⟩ := by
  have hstep : ∀ (s : ReplicaState) (e : ReplicaEvent sha1) m,
      s.slaveInfo.lookup node = some ⟨0, false⟩ → replicaStep s e = some m →
        m.slaveInfo.lookup node = some ⟨0, false⟩ := by
    intro s e m hs hm
    by_cases hc : e.Consults s node
    · cases e with
      | change other n => exact hc.elim
      | call c =>
        obtain ⟨support, hc⟩ := hc
        obtain ⟨r, slaveInfo, hp, rfl⟩ := replicaStep_call hm
        rw [SyncedCall.perform_zero hc hs hp]
        exact hs
    · rw [replicaStep_frame hc hm, hs]
  have hkept := run_invariant hstep h0 h
  exact hkept

end Runs

/-! A primary whose INFO says how many replicas it has, and that answers WAIT with `synced`. -/

def infoService (info : String) : AsyncService fun _ => "" where
  isEvalCacheActive := false
  isBatch := false
  isSingle := false
  retryAttempts := none
  responseTimeout := none
  keyslot _ := 12182
  getWriteEntry _ := some localServer
  server sent :=
    match sent.getLast? with
    | some ⟨.method _ _, _⟩ => .ok (.string info)
    | _ => .ok (.integer 1)
  toText
    | .string text => .ok text
    | _ => .error ⟨"Could not convert to string."⟩
  syncedBatch _ _ _ _ _ _ w := (.ok .null, w)

def lockCall (info : String) (synced : Int) : SyncedCall fun _ => "" where
  svc := infoService info
  world := ⟨[], true, true, .empty, ∅, none⟩
  mode := .wait
  retry := true
  script := lockEval.script
  keys := lockEval.keys
  args := lockEval.args
  slavesSyncTimeout := lockEval.slavesSyncTimeout
  checkLockSyncedSlaves := true
  batchRetryAttempts := lockEval.retryAttempts
  useScriptCache := false
  readMode := .master
  events := [.fetchIndex, .push, .compareExchange, .drain,
    .complete (oneNodeEnvironment (.ok (.integer synced))) (.first 0), .join]

def replicaLost : List (ReplicaEvent fun _ => "") :=
  [.call (lockCall "connected_slaves:2" 2), .change localServer 1,
    .call (lockCall "connected_slaves:1" 1)]

theorem dropsStale_replicaLost : ∃ t, run replicaStep ⟨∅, fun _ => 2⟩ replicaLost = some t ∧
    GuardedRun replicaStep DropsStale ⟨∅, fun _ => 2⟩ replicaLost t ∧
    t.slaveInfo.lookup localServer = none := by
  obtain ⟨t, hrun, hnone⟩ : ∃ t, GuardedRun replicaStep Detects ⟨∅, fun _ => 2⟩ replicaLost t ∧
      t.slaveInfo.lookup localServer = none := by
    refine ⟨_, ⟨?_, _, rfl, trivial, _, rfl, ?_, _, rfl, rfl⟩, rfl⟩
    · intro node v hused
      cases hused.2.2
    · intro node v hused hstale
      obtain ⟨⟨support, hc, -⟩, -, hl⟩ := hused
      obtain rfl : localServer = node := Option.some.inj hc.routed
      obtain rfl : (2 : Int) = v := congrArg ReplicationInfo.connectedSlaves (Option.some.inj hl)
      refine ⟨by decide, fun env sched he => ?_⟩
      obtain ⟨rfl, -⟩ : env = oneNodeEnvironment (.ok (.integer 1)) ∧ sched = .first 0 := by
        simpa [lockCall] using he
      rintro ⟨i, g, -, hanswer⟩
      have hsynced : (1 : Int) = 2 := hanswer
      omega
  exact ⟨t, hrun.run_eq, dropsStale_run hrun, hnone⟩

def replicaGained (connected : String) : List (ReplicaEvent fun _ => "") :=
  [.call (lockCall connected 1), .change localServer 2, .call (lockCall connected 1)]

theorem usesCached_lockCall {info : String} {synced v : Int} {slaveInfo : SlaveInfo}
    (h : slaveInfo.lookup localServer = some ⟨v, false⟩) :
    (lockCall info synced).UsesCached slaveInfo localServer v :=
  ⟨⟨⟨true, true⟩, ⟨rfl, rfl, rfl, rfl, rfl⟩, rfl⟩, nofun, h⟩

theorem not_dropsStale_replicaGained {info : String} {v : Int} {s m t : ReplicaState} (hv : v ≠ 2)
    (hm : replicaStep s (.call (lockCall info 1)) = some m)
    (hl : m.slaveInfo.lookup localServer = some ⟨v, false⟩)
    (hkept : ∃ r slaveInfo, (lockCall info 1).perform m.slaveInfo = some (.ok r, slaveInfo) ∧
      slaveInfo.lookup localServer ≠ none) :
    ¬ GuardedRun replicaStep DropsStale s (replicaGained info) t := by
  rintro ⟨-, n₁, hn₁, -, n₂, hn₂, hd, -⟩
  obtain ⟨r, slaveInfo, hp, hkept⟩ := hkept
  obtain rfl : m = n₁ := Option.some.inj (hm.symm.trans hn₁)
  cases hn₂
  have hforgotten := hd localServer v r slaveInfo (usesCached_lockCall hl) (by simpa using hv) hp
  exact hkept hforgotten.absent

/-- A replica that has connected since the count was read goes unnoticed when the count was 0, and
when WAIT answers with as many replicas as it was asked for. -/
theorem count_outlives_replica :
    (∃ t, run replicaStep ⟨∅, fun _ => 0⟩ (replicaGained "connected_slaves:0") = some t ∧
      t.slaveInfo.lookup localServer = some ⟨0, false⟩ ∧
      ¬ GuardedRun replicaStep DropsStale ⟨∅, fun _ => 0⟩ (replicaGained "connected_slaves:0") t) ∧
    ∃ t, run replicaStep ⟨∅, fun _ => 1⟩ (replicaGained "connected_slaves:1") = some t ∧
      t.slaveInfo.lookup localServer = some ⟨1, false⟩ ∧
      ¬ GuardedRun replicaStep DropsStale ⟨∅, fun _ => 1⟩ (replicaGained "connected_slaves:1") t := by
  have hzero : (0 : Int) ≠ 2 := by decide
  have hone : (1 : Int) ≠ 2 := by decide
  exact ⟨⟨_, rfl, rfl, not_dropsStale_replicaGained hzero rfl rfl ⟨_, _, rfl, nofun⟩⟩,
    _, rfl, rfl, not_dropsStale_replicaGained hone rfl rfl ⟨_, _, rfl, nofun⟩⟩

end Redisson
