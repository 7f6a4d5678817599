import Redisson.CommandAsyncService

/-! `synced_eval` up to the point where it has decided what to do, apart from doing it: it has
answered by then, or it will execute a batch of the script and wait. -/

namespace Redisson

inductive SyncedPlan
  | answered (r : Reply)
  | batch (useAof : Bool) (availableSlaves : Int) (clusterNode : Option Server)
    (waits : availableSlaves ≠ 0 ∨ useAof = true)

/-- Nothing was done to the cached replica counts, and all calls that were sent are still logged. -/
structure World.Extends {sha1 : String → String} (w w' : World sha1) : Prop where
  slaveInfo : w'.slaveInfo = w.slaveInfo
  sent : w.sent <+: w'.sent

namespace World.Extends

variable {sha1 : String → String} {w w' w'' : World sha1}

theorem refl (w : World sha1) : w.Extends w := ⟨rfl, List.prefix_refl _⟩

theorem trans (h : w.Extends w') (h' : w'.Extends w'') : w.Extends w'' :=
  ⟨h'.slaveInfo.trans h.slaveInfo, h.sent.trans h'.sent⟩

end World.Extends

namespace AsyncService

variable {sha1 : String → String} (svc : AsyncService sha1)

def usesAof (mode : SyncMode) (support : WaitSupport) (repl : ReplicationInfo) : Bool :=
  support.waitAof && repl.aofEnabled && mode ≠ .wait

def slavesToWaitFor (support : WaitSupport) (repl : ReplicationInfo) : Int :=
  if support.wait then repl.connectedSlaves else 0

theorem waits_of_not_idle {availableSlaves : Int} {useAof : Bool}
    (h : ¬ (availableSlaves = 0 && !useAof) = true) : availableSlaves ≠ 0 ∨ useAof = true := by
  cases useAof <;> simp_all

def nodeOptions (keys : List Key) : Options :=
  { svc.buildOptions with clusterNode := svc.nodeOfKeys keys }

def answerWriteFallback (retry : Bool) (script : String) (keys : List Key) (args : List Value)
    (w : World sha1) : SyncedPlan × World sha1 :=
  let (r, w) := svc.evalWriteFallback retry script keys args w
  (.answered r, w)

/-- What `synced_eval` makes of the replica count that it has read. -/
def planFor (mode : SyncMode) (retry : Bool) (script : String) (keys : List Key)
    (args : List Value) (support : WaitSupport) (repl : ReplicationInfo) (w : World sha1) :
    SyncedPlan × World sha1 :=
  if h : (slavesToWaitFor support repl = 0 && !usesAof mode support repl) = true then
    svc.answerWriteFallback retry script keys args w
  else (.batch (usesAof mode support repl) (slavesToWaitFor support repl) (svc.nodeOfKeys keys)
    (waits_of_not_idle h), w)

section

variable {svc} {mode : SyncMode} {retry : Bool} {script : String} {keys : List Key}
  {args : List Value} {support : WaitSupport} {repl : ReplicationInfo} {w : World sha1}

theorem planFor_idle (h : (slavesToWaitFor support repl = 0 && !usesAof mode support repl) = true) :
    svc.planFor mode retry script keys args support repl w =
      svc.answerWriteFallback retry script keys args w :=
  dif_pos h

theorem planFor_waits (h : ¬ (slavesToWaitFor support repl = 0 && !usesAof mode support repl) = true) :
    svc.planFor mode retry script keys args support repl w =
      (.batch (usesAof mode support repl) (slavesToWaitFor support repl) (svc.nodeOfKeys keys)
        (waits_of_not_idle h), w) :=
  dif_neg h

theorem planFor_batch {useAof : Bool} {v : Int} {clusterNode : Option Server}
    {waits : v ≠ 0 ∨ useAof = true}
    (h : (svc.planFor mode retry script keys args support repl w).1 = .batch useAof v clusterNode waits) :
    clusterNode = svc.nodeOfKeys keys := by
  by_cases hidle : (slavesToWaitFor support repl = 0 && !usesAof mode support repl) = true
  · rw [planFor_idle hidle] at h
    cases h
  · rw [planFor_waits hidle] at h
    cases h
    rfl

end

/-- The steps of `synced_eval` before its batch. -/
def syncedPlan (mode : SyncMode) (retry : Bool) (script : String) (keys : List Key)
    (args : List Value) (w : World sha1) : SyncedPlan × World sha1 :=
  if svc.isSingle || svc.isBatch then svc.answerWriteFallback retry script keys args w
  else
    match svc.probeWaitSupport (svc.nodeOptions keys) w with
    | (.error e, w) => (.answered (.error e), w)
    | (.ok support, w) =>
      if skips mode support then svc.answerWriteFallback retry script keys args w
      else
        match svc.replicationInfo (svc.nodeOptions keys) (svc.nodeOfKeys keys) w with
        | (.error e, w) => (.answered (.error e), w)
        | (.ok repl, w) => svc.planFor mode retry script keys args support repl w

theorem syncedEval_eq_plan (mode : SyncMode) (retry : Bool) (script : String) (keys : List Key)
    (args : List Value) (w : World sha1) :
    svc.syncedEval mode retry script keys args w =
      match svc.syncedPlan mode retry script keys args w with
      | (.answered r, w) => (r, w)
      | (.batch useAof availableSlaves clusterNode _, w) =>
        svc.syncedBatch useAof availableSlaves clusterNode script keys args w := by
  by_cases hs : (svc.isSingle || svc.isBatch) = true
  · simp [syncedEval, syncedPlan, answerWriteFallback, hs]
  · cases hp : svc.probeWaitSupport (svc.nodeOptions keys) w with
    | mk probed w₁ =>
      have hp' := hp
      simp only [nodeOptions] at hp'
      cases probed with
      | error e => simp [syncedEval, syncedPlan, hs, hp, hp']
      | ok support =>
        by_cases hk : skips mode support = true
        · simp [syncedEval, syncedPlan, answerWriteFallback, hs, hp, hp', hk]
        · cases hr : svc.replicationInfo (svc.nodeOptions keys) (svc.nodeOfKeys keys) w₁ with
          | mk found w₂ =>
            have hr' := hr
            simp only [nodeOptions] at hr'
            cases found with
            | error e => simp [syncedEval, syncedPlan, hs, hp, hp', hk, hr, hr']
            | ok repl =>
              simp only [syncedEval, syncedPlan, hs, hp, hp', hk, hr, hr', if_false, Bool.false_eq_true]
              by_cases h : (slavesToWaitFor support repl = 0 && !usesAof mode support repl) = true
              · rw [planFor_idle h]
                exact if_pos h
              · rw [planFor_waits h]
                exact if_neg h

section Effects

variable {svc} {w w' : World sha1}

theorem send_extends (options : Options) (call : Call) (w : World sha1) :
    w.Extends (svc.send options call w).2 :=
  ⟨rfl, List.prefix_append _ _⟩

theorem extends_of_eq {α : Type} {p : α × World sha1} {r : α} (h : w.Extends p.2)
    (hp : p = (r, w')) : w.Extends w' := by
  rwa [hp] at h

theorem execute_extends (options : Options) (cmd : RedisCommand) (w : World sha1) :
    w.Extends (svc.execute options cmd w).2 := by
  cases cmd with
  | evalShaRo | sortRo =>
    simp only [execute]
    split
    · split
      · next hs => exact extends_of_eq (send_extends _ _ _) hs
      · next hs =>
        have hw := extends_of_eq (send_extends _ _ _) hs
        split
        · exact hw.trans ⟨rfl, List.prefix_append _ _⟩
        · exact hw
    · exact send_extends _ _ _
  | _ => exact send_extends _ _ _

theorem evalAsync_extends (readOnly noRetry : Bool) (script : String) (keys : List Key)
    (args : List Value) (w : World sha1) :
    w.Extends (svc.evalAsync readOnly noRetry script keys args w).2 := by
  simp only [evalAsync]
  split
  · exact execute_extends _ _ _
  · have hsha : w.Extends { w with caches := (w.caches.calcSha script).2 } :=
      ⟨rfl, List.prefix_refl _⟩
    split
    · next hs => exact extends_of_eq (hsha.trans (execute_extends _ _ _)) hs
    · next e w' hs =>
      have hw := extends_of_eq (hsha.trans (execute_extends _ _ _)) hs
      have hprobed : w'.Extends { w' with evalShaRoSupported := false } := ⟨rfl, List.prefix_refl _⟩
      split
      · exact hw.trans (hprobed.trans (execute_extends _ _ _))
      · split
        · split
          · next hl => exact extends_of_eq (hw.trans (send_extends _ _ _)) hl
          · next hl =>
            exact (extends_of_eq (hw.trans (send_extends _ _ _)) hl).trans (execute_extends _ _ _)
        · exact hw

theorem evalWriteFallback_extends (retry : Bool) (script : String) (keys : List Key)
    (args : List Value) (w : World sha1) :
    w.Extends (svc.evalWriteFallback retry script keys args w).2 := by
  unfold evalWriteFallback
  split <;> exact evalAsync_extends _ _ _ _ _ _

theorem probeCommand_extends (options : Options) (name : String) (args : List Value)
    (w : World sha1) : w.Extends (svc.probeCommand options name args w).2 := by
  simp only [probeCommand]
  split
  · next hs => exact extends_of_eq (send_extends _ _ _) hs
  · next hs =>
    have hw := extends_of_eq (send_extends _ _ _) hs
    split <;> exact hw

theorem probeWaitSupport_extends (options : Options) (w : World sha1) :
    w.Extends (svc.probeWaitSupport options w).2 := by
  simp only [probeWaitSupport]
  split
  · exact .refl w
  · split
    · next hp => exact extends_of_eq (probeCommand_extends _ _ _ _) hp
    · next hp =>
      have hw := extends_of_eq (probeCommand_extends _ _ _ _) hp
      split
      · next hq => exact hw.trans (extends_of_eq (probeCommand_extends _ _ _ _) hq)
      · next hq =>
        have hw' := hw.trans (extends_of_eq (probeCommand_extends _ _ _ _) hq)
        exact ⟨hw'.slaveInfo, hw'.sent⟩

theorem queryReplicationInfo_extends (options : Options) (w : World sha1) :
    w.Extends (svc.queryReplicationInfo options w).2 := by
  simp only [queryReplicationInfo]
  split
  · next hs => exact extends_of_eq (send_extends _ _ _) hs
  · next hs => exact extends_of_eq (send_extends _ _ _) hs

theorem answerWriteFallback_extends (retry : Bool) (script : String) (keys : List Key)
    (args : List Value) (w : World sha1) :
    w.Extends (svc.answerWriteFallback retry script keys args w).2 :=
  evalWriteFallback_extends retry script keys args w

theorem planFor_extends (mode : SyncMode) (retry : Bool) (script : String) (keys : List Key)
    (args : List Value) (support : WaitSupport) (repl : ReplicationInfo) (w : World sha1) :
    w.Extends (svc.planFor mode retry script keys args support repl w).2 := by
  by_cases h : (slavesToWaitFor support repl = 0 && !usesAof mode support repl) = true
  · rw [planFor_idle h]
    exact answerWriteFallback_extends _ _ _ _ _
  · rw [planFor_waits h]
    exact .refl w

end Effects

/-- The call comes to `get_slave_info` of the node. -/
structure Consults (mode : SyncMode) (keys : List Key) (w : World sha1) (node : Server)
    (support : WaitSupport) : Prop where
  notSingle : svc.isSingle = false
  notBatch : svc.isBatch = false
  routed : svc.nodeOfKeys keys = some node
  probed : (svc.probeWaitSupport (svc.nodeOptions keys) w).1 = .ok support
  notSkipped : skips mode support = false

def infoCall (keys : List Key) : SentCall :=
  ⟨.method "info" [.value (.string "all")], svc.nodeOptions keys⟩

section Plans

variable {svc} {mode : SyncMode} {retry : Bool} {script : String} {keys : List Key}
  {args : List Value} {support : WaitSupport} {node : Server} {w : World sha1}

theorem Consults.plan (h : svc.Consults mode keys w node support) :
    svc.syncedPlan mode retry script keys args w =
      match svc.replicationInfo (svc.nodeOptions keys) (some node)
        (svc.probeWaitSupport (svc.nodeOptions keys) w).2 with
      | (.error e, w) => (.answered (.error e), w)
      | (.ok repl, w) => svc.planFor mode retry script keys args support repl w := by
  have hprobed := h.probed
  cases hp : svc.probeWaitSupport (svc.nodeOptions keys) w with
  | mk probed w₁ =>
    obtain rfl : probed = .ok support := by simpa [hp] using hprobed
    simp [syncedPlan, h.notSingle, h.notBatch, hp, h.notSkipped, h.routed]

/-- A cached count is used without INFO. -/
theorem Consults.plan_cached (h : svc.Consults mode keys w node support) {repl : ReplicationInfo}
    (hc : w.slaveInfo.lookup node = some repl) :
    svc.syncedPlan mode retry script keys args w =
      svc.planFor mode retry script keys args support repl
        (svc.probeWaitSupport (svc.nodeOptions keys) w).2 := by
  have hkept : (svc.probeWaitSupport (svc.nodeOptions keys) w).2.slaveInfo = w.slaveInfo :=
    (probeWaitSupport_extends _ _).slaveInfo
  simp [h.plan, replicationInfo, hkept, hc]

theorem queryReplicationInfo_sent (keys : List Key) (w : World sha1) :
    (svc.queryReplicationInfo (svc.nodeOptions keys) w).2.sent = w.sent ++ [svc.infoCall keys] := by
  simp only [queryReplicationInfo]
  split
  · next hs => exact (congrArg (·.2.sent) hs).symm
  · next hs => exact (congrArg (·.2.sent) hs).symm

/-- Without a cached count the node is asked for one. -/
theorem Consults.plan_queries (h : svc.Consults mode keys w node support)
    (hc : w.slaveInfo.lookup node = none) :
    (svc.probeWaitSupport (svc.nodeOptions keys) w).2.sent ++ [svc.infoCall keys] <+:
      (svc.syncedPlan mode retry script keys args w).2.sent := by
  generalize hw₁ : (svc.probeWaitSupport (svc.nodeOptions keys) w).2 = w₁
  have hkept : w₁.slaveInfo = w.slaveInfo := hw₁ ▸ (probeWaitSupport_extends _ _).slaveInfo
  have hsent := @queryReplicationInfo_sent _ svc keys w₁
  rw [h.plan, hw₁]
  simp only [replicationInfo, Option.bind_some, hkept, hc]
  cases hq : svc.queryReplicationInfo (svc.nodeOptions keys) w₁ with
  | mk found w₂ =>
    rw [hq] at hsent
    rw [← hsent]
    cases found with
    | error e => exact List.prefix_refl _
    | ok info =>
      exact (planFor_extends mode retry script keys args support info
        { w₂ with slaveInfo := w₂.slaveInfo.insert node info }).sent

theorem replicationInfo_frame {options : Options} {clusterNode : Option Server}
    (h : clusterNode ≠ some node) :
    (svc.replicationInfo options clusterNode w).2.slaveInfo.lookup node = w.slaveInfo.lookup node := by
  simp only [replicationInfo]
  split
  · rfl
  · split
    · next hq => rw [(extends_of_eq (queryReplicationInfo_extends _ _) hq).slaveInfo]
    · next hq =>
      have hkept := (extends_of_eq (queryReplicationInfo_extends _ _) hq).slaveInfo
      cases clusterNode with
      | none => simp [hkept]
      | some other =>
        have hne : node ≠ other := fun hh => h (congrArg some hh.symm)
        simp [AList.lookup_insert_ne hne, hkept]

/-- A call that does not come to the count of a node leaves it alone. -/
theorem syncedPlan_frame (h : ∀ support, ¬ svc.Consults mode keys w node support) :
    (svc.syncedPlan mode retry script keys args w).2.slaveInfo.lookup node = w.slaveInfo.lookup node ∧
      ∀ useAof v clusterNode waits, (svc.syncedPlan mode retry script keys args w).1 =
        .batch useAof v clusterNode waits → clusterNode ≠ some node := by
  have hfallback : ∀ w', w.Extends w' →
      (svc.answerWriteFallback retry script keys args w').2.slaveInfo.lookup node =
        w.slaveInfo.lookup node := fun w' hw => by
    rw [(hw.trans (answerWriteFallback_extends retry script keys args w')).slaveInfo]
  by_cases hs : (svc.isSingle || svc.isBatch) = true
  · simp only [syncedPlan, if_pos hs]
    exact ⟨hfallback w (.refl w), fun _ _ _ _ hh => nomatch hh⟩
  · cases hp : svc.probeWaitSupport (svc.nodeOptions keys) w with
    | mk probed w₁ =>
      have hw₁ := extends_of_eq (probeWaitSupport_extends _ _) hp
      cases probed with
      | error e => simp [syncedPlan, hs, hp, hw₁.slaveInfo]
      | ok support =>
        by_cases hk : skips mode support = true
        · simp only [syncedPlan, if_neg hs, hp, if_pos hk]
          exact ⟨hfallback w₁ hw₁, fun _ _ _ _ hh => nomatch hh⟩
        · have hne : svc.nodeOfKeys keys ≠ some node := fun hh => by
            simp only [Bool.or_eq_true, not_or, Bool.not_eq_true] at hs hk
            exact h support ⟨hs.1, hs.2, hh, congrArg Prod.fst hp, hk⟩
          have hframe := @replicationInfo_frame _ svc node w₁ (svc.nodeOptions keys) _ hne
          simp only [syncedPlan, if_neg hs, hp, if_neg hk]
          cases hr : svc.replicationInfo (svc.nodeOptions keys) (svc.nodeOfKeys keys) w₁ with
          | mk found w₂ =>
            rw [hr, hw₁.slaveInfo] at hframe
            cases found with
            | error e => exact ⟨hframe, fun _ _ _ _ hh => nomatch hh⟩
            | ok repl =>
              have hplan := @planFor_extends _ svc mode retry script keys args support repl w₂
              refine ⟨(congrArg _ hplan.slaveInfo).trans hframe, fun _ _ clusterNode _ hh => ?_⟩
              exact planFor_batch hh ▸ hne

end Plans

end AsyncService

end Redisson
