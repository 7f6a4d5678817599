import Redisson.PipelinedBatch
import Redisson.ServerTransactions

/-! What MULTI and EXEC around the pipeline of each node are worth: on its node the group of
an `InMemoryAtomic` batch runs as one step, between whatever other connections send. -/

namespace Redisson

open AddressedMachines ServerTransactions

/-- A Redis node, with the client that reads its answers: an EXEC that has executed commands
is an array of their replies, or an error if one of them is. -/
structure Node (σ : Type*) where
  run : σ → Call → σ × Reply
  accepts : Call → Bool
  present : List Reply → Reply
  present_values : ∀ vs : List Value, present (vs.map .ok) = .ok (.array vs)
  present_error : ∀ rs : List Reply, (∃ e, .error e ∈ rs) → ∃ e, present rs = .error e

def Call.message (call : Call) : Message Call :=
  match call with
  | .custom name _ _ =>
    if name = "MULTI" then .multi else if name = "EXEC" then .exec else .request call
  | .method .. => .request call

namespace Node

variable {σ : Type*} (node : Node σ)

def execAbort : Error := ⟨"EXECABORT Transaction discarded because of previous errors."⟩

def render : Answer Reply → Reply
  | .opened => .ok (.string "OK")
  | .nested => .error ⟨"ERR MULTI calls can not be nested"⟩
  | .queued => .ok .queued
  | .refused => .error ⟨"ERR unknown command or wrong number of arguments"⟩
  | .done r => r
  | .executed rs => node.present rs
  | .aborted => .error execAbort
  | .withoutMulti => .error ⟨"ERR EXEC without MULTI"⟩

theorem present_cases (rs : List Reply) :
    (∃ vs, rs = vs.map .ok ∧ node.present rs = .ok (.array vs)) ∨
      (∃ e, .error e ∈ rs) ∧ ∃ e, node.present rs = .error e := by
  by_cases he : ∃ e, .error e ∈ rs
  · exact .inr ⟨he, node.present_error rs he⟩
  · obtain ⟨vs, rfl⟩ : ∃ vs : List Value, rs = vs.map .ok := by
      induction rs with
      | nil => exact ⟨[], rfl⟩
      | cons r rs ih =>
        cases r with
        | error e => exact absurd ⟨e, List.mem_cons_self⟩ he
        | ok v =>
          obtain ⟨vs, rfl⟩ := ih fun ⟨e, hm⟩ => he ⟨e, List.mem_cons_of_mem _ hm⟩
          exact ⟨v :: vs, rfl⟩
    exact .inl ⟨vs, rfl, node.present_values vs⟩

end Node

theorem message_executeOn (cmd : RedisCommand) :
    (RedisCommand.executeOn cmd).message = .request (RedisCommand.executeOn cmd) := by
  cases cmd <;> simp [RedisCommand.executeOn, Call.message]

namespace Group

def calls (g : Group) : List Call := g.commands.map fun d => RedisCommand.executeOn d.cmd

theorem pipeline_messages {svc : BatchService} (ha : svc.options.isAtomic = true) (g : Group) :
    ∃ tail, (g.pipeline svc).calls.map Call.message =
      (.multi :: g.calls.map .request) ++ .exec :: tail := by
  have hcalls : (g.commands.map fun d => RedisCommand.executeOn d.cmd).map Call.message =
      g.calls.map .request := by
    rw [calls, List.map_map, List.map_map]
    exact List.map_congr_left fun d _ => message_executeOn d.cmd
  refine ⟨((if waits svc then [makeWaitCmd g.mse.slotOrZero svc.options.syncAof
    svc.options.syncLocals svc.options.syncSlaves svc.options.syncTimeout] else []) :
      List Call).map Call.message, ?_⟩
  simp only [pipeline, opening, closing, ha, if_true, List.map_append, hcalls, List.map_cons,
    List.map_nil, List.append_assoc]
  rfl

end Group

section Delivery

variable {κ σ : Type*} [DecidableEq κ] {sha1 : String → String} (node : Node σ)
  (init : Server → State κ σ Call) (conn : Server → κ)
  (traffic : Server → List (κ × Message Call))

/-- The pipeline of each group, no call of which is routed elsewhere by a slot of its own, reaches
its primary on one connection, on which no transaction is open, among the messages of any other
connections. -/
structure AtomicDelivery (env : Environment sha1) (run : BatchRun) : Prop where
  idle : ∀ p, (init p).collected (conn p) = none
  merged : ∀ p, requestsAt (conn p) (traffic p) =
    ((run.pipelines.filter (·.1 = p)).flatMap (·.2.calls)).map Call.message
  replied : ∀ p (n : Nat) a,
    (answersAt (step node.run node.accepts) (init p) (traffic p) (conn p))[n]? = some a →
      env.reply p n = node.render a

/-- What the callers of a group learn of its execution as one block on the store `st`: each
the value of its own command, or all of them one error. -/
structure BlockReported (run : BatchRun) (g : Group) (st : σ) : Prop where
  values : g.calls.all node.accepts = true → ∀ vs : List Value,
    answers node.run st g.calls = vs.map .ok → ∀ (j : Nat) d v, g.commands[j]? = some d →
      vs[j]? = some v → callerResult run d.index = .ok v
  failed : g.calls.all node.accepts = true → (∃ e, .error e ∈ answers node.run st g.calls) →
    ∃ e, ∀ d ∈ g.commands, callerResult run d.index = .error e
  aborted : g.calls.all node.accepts = false →
    ∀ d ∈ g.commands, callerResult run d.index = .error Node.execAbort

variable {node init conn traffic} {svc : BatchService} {env : Environment sha1} {q : Queue}
  {sched : Schedule} {groups : List Group} {g : Group} {st : σ}

theorem AtomicDelivery.messages
    (h : AtomicDelivery node init conn traffic env (runGroups svc env groups sched))
    (hq : ∀ p, env.enqueueError p = none) (hn : (groups.map (·.mse.primary)).Nodup)
    (hg : g ∈ groups) : requestsAt (conn g.mse.primary) (traffic g.mse.primary) =
      (g.pipeline svc).calls.map Call.message := by
  have horder := sched.order_perm groups
  rw [h.merged, runGroups_pipelines hq, calls_at ((horder.map _).nodup_iff.mpr hn)
    (horder.mem_iff.mpr hg)]

theorem Group.popWait_getLast (ha : svc.options.isAtomic = true) :
    (Group.popWait svc (g.tryAll svc env)).getLast? =
      some (env.reply g.mse.primary (g.commands.length + 1)) := by
  rw [Group.popWait_tryAll, ha]
  simp [List.range_succ]

/-- An EXEC that is answered with an array or an error lets no task fail. -/
theorem Group.not_fails (hq : ∀ p, env.enqueueError p = none) (ha : svc.options.isAtomic = true)
    (hexec : (∃ vs, env.reply g.mse.primary (g.commands.length + 1) = .ok (.array vs)) ∨
      ∃ e, env.reply g.mse.primary (g.commands.length + 1) = .error e) :
    ¬ Group.Fails svc (env.fate svc g) := by
  simp only [Environment.fate, hq, Group.Fails, Group.popWait_getLast ha]
  rintro ⟨-, -, hm⟩
  rcases hexec with ⟨vs, hx⟩ | ⟨e, hx⟩ <;> simp [hx, Group.Malformed] at hm

theorem callerResult_of_group (hp : prepare svc env q = .ok groups)
    (hok : ∀ g ∈ groups, ¬ Group.Fails svc (env.fate svc g)) (hg : g ∈ groups) {i : Nat} {r : Reply}
    (hs : (i, r) ∈ (g.run svc env).sends) :
    callerResult (runGroups svc env groups sched) i = r := by
  rw [runGroups_eq_runFates, callerResult_eq_receive]
  refine receive_of_mem (runFates_sends_nodup hp) ?_
  rw [runFates_sends hok]
  refine List.mem_flatMap.mpr ⟨g, (sched.order_perm groups).mem_iff.mpr hg, ?_⟩
  rwa [← Group.run_eq_runFate]

/-- The callers of a group are told what EXEC was answered with. -/
theorem blockReported (hs : svc.options.skipResult = false) (ha : svc.options.isAtomic = true)
    (hq : ∀ p, env.enqueueError p = none) (hp : prepare svc env q = .ok groups)
    (hok : ∀ g ∈ groups, ¬ Group.Fails svc (env.fate svc g)) (hg : g ∈ groups)
    (hexec : env.reply g.mse.primary (g.commands.length + 1) =
      node.render (execute node.run node.accepts st g.calls).2) :
    BlockReported node (runGroups svc env groups sched) g st := by
  have hsends := Group.run_atomic (hq g.mse.primary) hs ha
  have herror : ∀ e, env.reply g.mse.primary (g.commands.length + 1) = .error e →
      ∀ d ∈ g.commands, callerResult (runGroups svc env groups sched) d.index = .error e := by
    intro e he d hd
    refine callerResult_of_group hp hok hg ?_
    rw [hsends, he]
    exact List.mem_map_of_mem (f := fun i => (i, (.error e : Reply))) (List.mem_map_of_mem hd)
  refine ⟨fun hall vs hvs j d v hd hv => ?_, fun hall hbad => ?_, fun hall => herror _ ?_⟩
  · rw [execute, if_pos hall, Node.render, hvs, node.present_values] at hexec
    refine callerResult_of_group hp hok hg ?_
    rw [hsends, hexec]
    exact Group.mem_indexes_zip.mpr ⟨j, d, hd, rfl, by simp [hv]⟩
  · rw [execute, if_pos hall, Node.render] at hexec
    obtain ⟨e, he⟩ := node.present_error _ hbad
    exact ⟨e, herror e (hexec.trans he)⟩
  · rw [hexec, execute, if_neg (by simp [hall])]
    rfl

/-- Without `skip_result`, the group of each node runs as one step, all or nothing, at the
moment its EXEC arrives, and its callers learn what that step has answered. -/
theorem atomic_batch_isolated (hs : svc.options.skipResult = false)
    (ha : svc.options.isAtomic = true) (hq : ∀ p, env.enqueueError p = none)
    (hp : prepare svc env q = .ok groups)
    (hd : AtomicDelivery node init conn traffic env (executeInMemory svc env q sched)) :
    ∀ g ∈ groups, ∃ u v, traffic g.mse.primary = u ++ (conn g.mse.primary, .exec) :: v ∧
      let before := after (step node.run node.accepts) (init g.mse.primary)
        (without (conn g.mse.primary) u)
      after (step node.run node.accepts) (init g.mse.primary) (traffic g.mse.primary) =
          after (step node.run node.accepts)
            (before.withStore (execute node.run node.accepts before.store g.calls).1) v ∧
        BlockReported node (executeInMemory svc env q sched) g before.store := by
  have hne : groups ≠ [] → q.entries ≠ [] := fun hgs => by
    obtain ⟨g, hg⟩ := List.exists_mem_of_ne_nil groups hgs
    exact prepare_queue_ne_nil hp hg
  obtain ⟨placed, -, -, hsplit⟩ := prepare_placements hp
  have hblock : ∀ g ∈ groups, ∃ u v, traffic g.mse.primary = u ++ (conn g.mse.primary, .exec) :: v ∧
      let before := after (step node.run node.accepts) (init g.mse.primary)
        (without (conn g.mse.primary) u)
      let executed := execute node.run node.accepts before.store g.calls
      after (step node.run node.accepts) (init g.mse.primary) (traffic g.mse.primary) =
          after (step node.run node.accepts) (before.withStore executed.1) v ∧
        env.reply g.mse.primary (g.commands.length + 1) = node.render executed.2 := by
    intro g hg
    rw [executeInMemory_ok (hne (List.ne_nil_of_mem hg)) hp] at hd
    obtain ⟨tail, htail⟩ := Group.pipeline_messages ha g
    have hmessages := (hd.messages hq hsplit.nodup hg).trans htail
    obtain ⟨u, v, huv, -, hafter, hanswers, -⟩ := transaction_isolated node.run
      node.accepts (hd.idle g.mse.primary) hmessages
    refine ⟨u, v, huv, hafter, hd.replied _ _ _ ?_⟩
    rw [hanswers, List.getElem?_append_right (by simp [Group.calls])]
    simp [Group.calls]
  have hok : ∀ g ∈ groups, ¬ Group.Fails svc (env.fate svc g) := by
    intro g hg
    obtain ⟨u, v, -, -, hexec⟩ := hblock g hg
    refine Group.not_fails hq ha ?_
    rw [hexec, execute]
    split
    · rcases node.present_cases (answers node.run _ g.calls) with ⟨vs, -, hvs⟩ | ⟨-, he⟩
      · exact .inl ⟨vs, hvs⟩
      · exact .inr he
    · exact .inr ⟨_, rfl⟩
  intro g hg
  obtain ⟨u, v, huv, hafter, hexec⟩ := hblock g hg
  refine ⟨u, v, huv, hafter, ?_⟩
  rw [executeInMemory_ok (hne (List.ne_nil_of_mem hg)) hp]
  exact blockReported hs ha hq hp hok hg hexec

end Delivery

/-! The increment in a transaction on one node, which numbers the commands it runs. Another
connection gets two commands in between MULTI and EXEC. -/

def presentExec : List Reply → Reply
  | [] => .ok (.array [])
  | .error e :: _ => .error e
  | .ok v :: rs =>
    match presentExec rs with
    | .ok (.array vs) => .ok (.array (v :: vs))
    | r => r

def numberingNode : Node Nat where
  run n _ := (n + 1, .ok (.integer n))
  accepts _ := true
  present := presentExec
  present_values vs := by
    induction vs with
    | nil => rfl
    | cons v vs ih => simp [presentExec, ih]
  present_error rs h := by
    induction rs with
    | nil => simp at h
    | cons r rs ih =>
      cases r with
      | error e => exact ⟨e, rfl⟩
      | ok v =>
        obtain ⟨e, he⟩ := ih (by simpa using h)
        exact ⟨e, by simp [presentExec, he]⟩

def busyTraffic (p : Server) : List (Bool × Message Call) :=
  if p = localServer then
    [(true, .multi), (false, .request (.method "ping" [])),
      (true, .request (RedisCommand.executeOn (.hIncrBy (utf8Bytes "foo") (utf8Bytes "hits") 1))),
      (false, .request (.method "ping" [])), (true, .exec)]
  else []

def execEnvironment : Environment fun _ => "" :=
  (oneNodeEnvironment (.ok .null)).withReply fun _ n =>
    ([.ok (.string "OK"), .ok .queued, .ok (.array [.integer 2])] : List Reply).getD n (.ok .null)

theorem atomic_batch_isolated_increment :
    ∃ u v, busyTraffic localServer = u ++ (true, .exec) :: v ∧
      let before := after (step numberingNode.run numberingNode.accepts) ⟨0, fun _ => none⟩
        (without true u)
      after (step numberingNode.run numberingNode.accepts) ⟨0, fun _ => none⟩
          (busyTraffic localServer) =
        after (step numberingNode.run numberingNode.accepts) (before.withStore
          (execute numberingNode.run numberingNode.accepts before.store incrementGroup.calls).1) v ∧
      BlockReported numberingNode
        (executeInMemory atomicService execEnvironment incrementQueue (.first 0)) incrementGroup
        before.store := by
  have hp : prepare atomicService execEnvironment incrementQueue = .ok [incrementGroup] := rfl
  have hd : AtomicDelivery numberingNode (fun _ => ⟨0, fun _ => none⟩) (fun _ => true) busyTraffic
      execEnvironment (executeInMemory atomicService execEnvironment incrementQueue (.first 0)) := by
    refine ⟨fun _ => rfl, fun p => ?_, fun p n a h => ?_⟩
    · by_cases hl : p = localServer
      · subst hl
        rfl
      · have hpipelines : (executeInMemory atomicService execEnvironment incrementQueue
            (.first 0)).pipelines = [(localServer, incrementGroup.pipeline atomicService)] := rfl
        simp [hpipelines, busyTraffic, hl, requestsAt, Ne.symm hl]
    · by_cases hl : p = localServer
      · subst hl
        have hanswers : answersAt (step numberingNode.run numberingNode.accepts)
            ⟨0, fun _ => none⟩ (busyTraffic localServer) true =
              [.opened, .queued, .executed [.ok (.integer 2)]] := rfl
        rw [hanswers] at h
        rcases n with - | - | - | n <;> cases h <;> rfl
      · simp [busyTraffic, hl, answersAt] at h
  exact atomic_batch_isolated rfl rfl (fun _ => rfl) hp hd incrementGroup (by simp)

end Redisson
