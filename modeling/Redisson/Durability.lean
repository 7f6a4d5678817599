import Redisson.OpenTransactions
import Redisson.SyncedEvalRace

/-! Which batches wait for what their options ask for. `sync` and `sync_aof` record a request
for WAIT or WAITAOF; both executors decide whether to send it by the number of replicas. -/

namespace Redisson

variable {sha1 : String → String}

/-- A call of `sync` or `sync_aof` that asks for something: a replica or a local AOF. -/
inductive SyncRequest
  | sync (slaves : Int) (timeout : Nat) (asks : 1 ≤ slaves)
  | syncAOF (locals slaves : Int) (timeout : Nat) (asks : 1 ≤ locals)

namespace SyncRequest

def options (o : BatchOptions) : SyncRequest → BatchOptions
  | sync slaves timeout _ => o.sync slaves timeout
  | syncAOF locals slaves timeout _ => o.syncAOF locals slaves timeout

def service (req : SyncRequest) (svc : BatchService) : BatchService :=
  { svc with options := req.options svc.options }

def slaves : SyncRequest → Int
  | sync slaves .. => slaves
  | syncAOF _ slaves .. => slaves

/-- The call that asks for it, to the node of a slot. -/
def call (slot : Slot) : SyncRequest → Call
  | sync slaves timeout _ => .custom "WAIT" (.custom slot) [.integer slaves, .integer timeout]
  | syncAOF locals slaves timeout _ =>
    .custom "WAITAOF" (.custom slot) [.integer locals, .integer slaves, .integer timeout]

end SyncRequest

def Group.own (svc : BatchService) (g : Group) : List Call :=
  g.opening svc ++ g.commands.map (fun d => RedisCommand.executeOn d.cmd) ++
    if svc.options.isAtomic then [.custom "EXEC" (.custom g.mse.slotOrZero) []] else []

section Asking

variable (req : SyncRequest) (svc : BatchService)

/-- Every pipeline that is sent ends with the call, after all that is the group's own, and on the
node of every command of the group. `route g n` is where `fred` sends the `n`-th call of the
pipeline of `g`, by the slot of the call. -/
def AsksAfterGroups (env : Environment sha1) (route : Group → Nat → Option Slot → Server)
    (q : Queue) : Prop :=
  ∀ groups, prepare svc env q = .ok groups → ∀ g ∈ groups, env.enqueueError g.mse.primary = none →
    (g.pipeline svc).calls = g.own svc ++ [req.call g.mse.slotOrZero] ∧
      ∀ (j : Nat) d, g.commands[j]? = some d →
        route g ((g.opening svc).length + j) ((RedisCommand.executeOn d.cmd).slot env.keyslot) =
          route g (g.own svc).length (some g.mse.slotOrZero)

/-- Each command of a group that is sent goes to the node that a call with the slot of the group
goes to at the end of its pipeline. -/
def CommandsWithWait (env : Environment sha1) (route : Group → Nat → Option Slot → Server)
    (groups : List Group) : Prop :=
  ∀ g ∈ groups, env.enqueueError g.mse.primary = none →
    ∀ (j : Nat) d, g.commands[j]? = some d →
      route g ((g.opening svc).length + j) ((RedisCommand.executeOn d.cmd).slot env.keyslot) =
        route g (g.own svc).length (some g.mse.slotOrZero)

end Asking

section Requests

variable {req : SyncRequest} {svc : BatchService}

/-- Both executors look at the replicas only. -/
theorem SyncRequest.waits_iff : Group.waits (req.service svc) = true ↔ 0 < req.slaves := by
  cases req <;> exact decide_eq_true_iff

theorem SyncRequest.makeWaitCmd_eq (slot : Slot) :
    makeWaitCmd slot (req.service svc).options.syncAof (req.service svc).options.syncLocals
      (req.service svc).options.syncSlaves (req.service svc).options.syncTimeout = req.call slot := by
  cases req <;> rfl

theorem SyncRequest.waitCalls_eq (slot : Slot) :
    waitCalls (req.service svc) slot = if 0 < req.slaves then [req.call slot] else [] := by
  simp only [waitCalls, waits_iff, makeWaitCmd_eq]

theorem Group.pipeline_calls_eq (svc : BatchService) (g : Group) :
    (g.pipeline svc).calls = g.own svc ++ waitCalls svc g.mse.slotOrZero := by
  simp [pipeline, closing, own, waitCalls]

theorem asksAfterGroups_iff {env : Environment sha1} {route : Group → Nat → Option Slot → Server}
    {q : Queue} : AsksAfterGroups req (req.service svc) env route q ↔
      ∀ groups, prepare (req.service svc) env q = .ok groups →
        ((∃ g ∈ groups, env.enqueueError g.mse.primary = none) → 0 < req.slaves) ∧
          CommandsWithWait (req.service svc) env route groups := by
  have hgroup : ∀ g : Group, ((g.pipeline (req.service svc)).calls =
      g.own (req.service svc) ++ [req.call g.mse.slotOrZero]) ↔ 0 < req.slaves := by
    intro g
    rw [g.pipeline_calls_eq, List.append_cancel_left_eq, SyncRequest.waitCalls_eq]
    split <;> simp [*]
  refine forall₂_congr fun groups hp => ?_
  constructor
  · intro h
    refine ⟨?_, fun g hg hsent => (h g hg hsent).2⟩
    rintro ⟨g, hg, hsent⟩
    exact (hgroup g).mp (h g hg hsent).1
  · rintro ⟨hslaves, hroute⟩ g hg hsent
    exact ⟨(hgroup g).mpr (hslaves ⟨g, hg, hsent⟩), hroute g hg hsent⟩

end Requests

section SyncedEval

/-- The request that `synced_eval` builds its batch with once it has decided for the AOF. -/
def SyncedEval.aofRequest (ev : SyncedEval) : SyncRequest :=
  .syncAOF 1 ev.availableSlaves ev.slavesSyncTimeout (Int.le_refl 1)

theorem SyncedEval.batch_eq {ev : SyncedEval} (h : ev.useAof = true) :
    ev.batch = ev.aofRequest.service ev.batch := by
  simp [batch, batchOpts, h, aofRequest, SyncRequest.service, SyncRequest.options, BatchOptions.syncAOF]

/-- The script is followed by the WAITAOF that was decided on only if a replica is connected and
the script is sent to the node of its key. -/
theorem SyncedEval.asks_iff {ev : SyncedEval} {env : Environment sha1}
    {route : Group → Nat → Option Slot → Server} {i : Nat} (h : ev.useAof = true) :
    AsksAfterGroups ev.aofRequest ev.batch env route (ev.queue i) ↔
      ∀ groups, prepare ev.batch env (ev.queue i) = .ok groups →
        ((∃ g ∈ groups, env.enqueueError g.mse.primary = none) → 0 < ev.availableSlaves) ∧
          CommandsWithWait ev.batch env route groups := by
  have hh := @asksAfterGroups_iff _ ev.aofRequest ev.batch env route (ev.queue i)
  rwa [← SyncedEval.batch_eq h] at hh

end SyncedEval

/-! A script on a primary that writes an AOF and has no replica. -/

end Redisson
