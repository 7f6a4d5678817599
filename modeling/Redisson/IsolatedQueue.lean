import Redisson.IsolatedBatch
import Redisson.RedisBasedCalls

/-! What the queue of a Redis-based batch is worth where its sends do meet on one connection
that it has to itself: the commands run as one step when EXEC arrives, as in an `InMemoryAtomic`
batch. -/

namespace Redisson

open AddressedMachines ServerTransactions

/-- The places of the commands that are not WAIT and that the server takes into the queue. -/
def queuedIndexes (accepts : Call → Bool) (i : Nat) (cmds : List RedisCommand) : List Nat :=
  ((cmds.zipIdx i).filter fun w => !isWaitCommand w.1 && accepts (RedisCommand.executeOn w.1)).map
    Prod.snd

def queueableCalls (cmds : List RedisCommand) : List Call :=
  (queueable cmds).map RedisCommand.executeOn

section Indexes

variable {accepts : Call → Bool} {i : Nat} {cmd : RedisCommand} {cmds : List RedisCommand}

theorem queuedIndexes_cons : queuedIndexes accepts i (cmd :: cmds) =
    (if !isWaitCommand cmd && accepts (RedisCommand.executeOn cmd) then [i] else []) ++
      queuedIndexes accepts (i + 1) cmds := by
  cases hq : !isWaitCommand cmd && accepts (RedisCommand.executeOn cmd) with
  | true => simp [queuedIndexes, List.zipIdx_cons, hq]
  | false => simp [queuedIndexes, List.zipIdx_cons, hq]

theorem queuedIndexes_pairwise : (queuedIndexes accepts i cmds).Pairwise (· < ·) := by
  have hall : ((cmds.zipIdx i).map Prod.snd).Pairwise (· < ·) := by
    rw [List.zipIdx_map_snd]
    exact List.pairwise_lt_range'
  exact hall.sublist (List.filter_sublist.map _)

theorem queuedIndexes_of_all (hall : (queueableCalls cmds).all accepts = true) :
    queuedIndexes accepts i cmds = queuedIndexes (fun _ => true) i cmds := by
  refine congrArg (List.map Prod.snd) (List.filter_congr fun w hw => ?_)
  cases hwait : isWaitCommand w.1 with
  | true => rfl
  | false =>
    have hmem : w.1 ∈ queueable cmds :=
      List.mem_filter.mpr ⟨List.fst_mem_of_mem_zipIdx hw, by simp [hwait]⟩
    simpa using List.all_eq_true.mp hall _ (List.mem_map_of_mem hmem)

theorem queuedIndexes_length :
    (queuedIndexes (fun _ => true) i cmds).length = (queueableCalls cmds).length := by
  have hfst : queueable cmds = ((cmds.zipIdx i).filter fun w => !isWaitCommand w.1).map Prod.fst := by
    conv_lhs => rw [queueable, ← List.zipIdx_map_fst i cmds, List.filter_map]
    rfl
  simp [queuedIndexes, queueableCalls, hfst]

end Indexes

section Queueing

variable {svc : BatchService} {env : PoolEnvironment} {accepts : Call → Bool}

theorem queueAll_open_entries {s : RedisBased} (cmds : List RedisCommand) (he : s.entries ≠ [])
    (hacc : ∀ (j : Nat) call, (queueableCalls cmds)[j]? = some call →
      env.accepts (s.picks + j) = accepts call) :
    (queueAll svc env s cmds).1.entries = s.entries ++ queuedIndexes accepts s.nextIndex cmds := by
  induction cmds generalizing s with
  | nil => simp [queueAll, queuedIndexes]
  | cons cmd cmds ih =>
    cases hw : isWaitCommand cmd with
    | true =>
      have hrest := @ih { s with nextIndex := s.nextIndex + 1 } he fun j call hj =>
        hacc j call (by simpa [queueableCalls, queueable, hw] using hj)
      simpa [queueAll, (queueCommand_wait hw).1, queuedIndexes_cons, hw] using hrest
    | false =>
      have hhead := hacc 0 (RedisCommand.executeOn cmd) (by simp [queueableCalls, queueable, hw])
      obtain ⟨-, hpicks, -, hne⟩ := @queueCommand_open svc env s cmd hw he
      have hnext : (queueCommand svc env s cmd).1.nextIndex = s.nextIndex + 1 ∧
          (queueCommand svc env s cmd).1.entries = s.entries ++
            if accepts (RedisCommand.executeOn cmd) then [s.nextIndex] else [] := by
        rw [← hhead, Nat.add_zero]
        cases hr : env.reply s.picks with
        | ok v => simp [queueCommand, hw, openTransaction, he, hr, PoolEnvironment.accepts]
        | error e => simp [queueCommand, hw, openTransaction, he, hr, PoolEnvironment.accepts]
      have hrest := ih hne fun j call hj => by
        rw [hpicks, Nat.add_assoc, Nat.add_comm 1]
        exact hacc (j + 1) call (by simpa [queueableCalls, queueable, hw] using hj)
      simp only [queueAll, hrest, hnext, queuedIndexes_cons, hw, Bool.not_false, Bool.true_and,
        List.append_assoc]

/-- The first command of the queue is accepted after its MULTI, and each one as the server
takes it. -/
theorem queueAll_entries {i : Nat} (cmds : List RedisCommand) (hmulti : env.accepts 0 = true)
    (hfirst : ∀ call, (queueableCalls cmds)[0]? = some call → accepts call = true)
    (hacc : ∀ (j : Nat) call, (queueableCalls cmds)[j]? = some call →
      env.accepts (j + 1) = accepts call) :
    (queueAll svc env ⟨none, [], i, 0⟩ cmds).1.entries = queuedIndexes accepts i cmds := by
  induction cmds generalizing i with
  | nil => rfl
  | cons cmd cmds ih =>
    cases hw : isWaitCommand cmd with
    | true =>
      have hcalls : queueableCalls (cmd :: cmds) = queueableCalls cmds := by
        simp [queueableCalls, queueable, hw]
      rw [hcalls] at hfirst hacc
      simpa [queueAll, (queueCommand_wait hw).1, queuedIndexes_cons, hw] using
        @ih (i + 1) hfirst hacc
    | false =>
      have hcalls :
          queueableCalls (cmd :: cmds) = RedisCommand.executeOn cmd :: queueableCalls cmds := by
        simp [queueableCalls, queueable, hw]
      rw [hcalls] at hfirst hacc
      have haccepted := hfirst _ rfl
      have hc := @queueCommand_empty svc env ⟨none, [], i, 0⟩ cmd hw rfl
      simp only [hmulti, hacc 0 _ rfl, haccepted, if_true] at hc
      have hrest := @queueAll_open_entries svc env accepts
        ⟨(cmd.routingKey.map env.keyslot).or none, [i], i + 1, 2⟩ cmds (by simp) fun j call hj => by
          rw [Nat.add_comm]
          exact hacc (j + 1) call hj
      simp only [queueAll, hc.1, Nat.zero_add, hrest, queuedIndexes_cons, hw, haccepted, Bool.not_false,
        Bool.and_self, if_true]

/-- The WAIT before the first queueable command are passed over. -/
theorem queueCalls_passed {cmds : List RedisCommand} {n : Nat} {slot : Option Slot} {call : Call}
    {calls : List Call} (hc : queueableCalls cmds = call :: calls) :
    ∃ cmd rest, isWaitCommand cmd = false ∧ call = RedisCommand.executeOn cmd ∧
      calls = queueableCalls rest ∧ queueCalls env n slot cmds = queueCalls env n slot (cmd :: rest) ∧
      opening env n slot cmds = opening env n slot (cmd :: rest) := by
  induction cmds with
  | nil => simp [queueableCalls, queueable] at hc
  | cons cmd cmds ih =>
    cases hw : isWaitCommand cmd with
    | true =>
      obtain ⟨cmd', rest, hw', hcall, hcalls, hqueue, hopen⟩ :=
        ih (by simpa [queueableCalls, queueable, hw] using hc)
      refine ⟨cmd', rest, hw', hcall, hcalls, ?_, ?_⟩
      · rw [← hqueue, queueCalls, if_pos hw]
      · rw [← hopen, opening, if_pos hw]
    | false =>
      have hcalls :
          queueableCalls (cmd :: cmds) = RedisCommand.executeOn cmd :: queueableCalls cmds := by
        simp [queueableCalls, queueable, hw]
      obtain ⟨rfl, rfl⟩ := List.cons.inj (hcalls.symm.trans hc)
      exact ⟨cmd, cmds, hw, rfl, rfl, rfl, rfl⟩

theorem queueCalls_multi {cmds : List RedisCommand} {n : Nat} {slot : Option Slot} {call : Call}
    {calls : List Call} (hc : queueableCalls cmds = call :: calls) :
    ∃ slot' rest, queueCalls env n slot cmds = (.multi, multiCall slot') :: rest := by
  obtain ⟨cmd, rest, hw, -, -, hqueue, -⟩ := @queueCalls_passed env _ n slot _ _ hc
  simp only [hqueue, queueCalls, hw, Bool.false_eq_true, if_false]
  exact ⟨_, _, rfl⟩

theorem queueCalls_command {cmds : List RedisCommand} {n : Nat} {slot : Option Slot} {call : Call}
    {calls : List Call} (hc : queueableCalls cmds = call :: calls) (hm : env.accepts n = true) :
    ∃ slot' rest, queueCalls env n slot cmds =
      (.multi, multiCall slot') :: (.command, call) :: rest := by
  obtain ⟨cmd, rest, hw, rfl, -, hqueue, -⟩ := @queueCalls_passed env _ n slot _ _ hc
  simp only [hqueue, queueCalls, hw, hm, Bool.false_eq_true, if_false, if_true]
  exact ⟨_, _, rfl⟩

theorem queueCalls_opened {cmds : List RedisCommand} {n : Nat} {slot : Option Slot} {call : Call}
    {calls : List Call} (hc : queueableCalls cmds = call :: calls) (hm : env.accepts n = true)
    (ha : env.accepts (n + 1) = true) :
    ∃ o, opening env n slot cmds = some o ∧ queueCalls env n slot cmds =
      (.multi, multiCall o.slot) :: (call :: calls).map (Prod.mk .command) := by
  obtain ⟨cmd, rest, hw, rfl, rfl, hqueue, hopen⟩ := @queueCalls_passed env _ n slot _ _ hc
  refine ⟨_, by rw [hopen, opening, hw, if_neg Bool.false_ne_true, if_pos hm, if_pos ha], ?_⟩
  rw [hqueue]
  simp [queueCalls, hw, hm, ha, commandCall, queueableCalls, Function.comp_def]

end Queueing

section Delivery

variable {κ σ : Type*} [DecidableEq κ] (node : Node σ) (init : State κ σ Call)
  (conn : Connection → κ) (home : Connection) (traffic : List (κ × Message Call))

/-- All sends of the batch meet on `home`, where no transaction is open. What arrives there are
these sends, in this order, among the messages of the other connections of the node. -/
structure QueueDelivery (svc : BatchService) (env : PoolEnvironment) (timeout : String)
    (cmds : List RedisCommand) : Prop where
  together : ∀ x ∈ batchSends svc env timeout none cmds, x.conn = home
  idle : init.collected (conn home) = none
  merged : requestsAt (conn home) traffic =
    (batchCalls svc env (.execute none) cmds).map fun w => w.2.message
  replied : ∀ (n : Nat) a,
    (answersAt (step node.run node.accepts) init traffic (conn home))[n]? = some a →
      env.reply n = node.render a

/-- What the callers learn of the execution of their commands as one block on the store `st`:
each the value of its own command, or all that were queued one error. The result lists the values
or else nothing. -/
structure QueueReported (cmds : List RedisCommand) (run : RedisBasedRun) (st : σ) : Prop where
  values : (queueableCalls cmds).all node.accepts = true → ∀ vs : List Value,
    answers node.run st (queueableCalls cmds) = vs.map .ok →
      run.delivered = (queuedIndexes (fun _ => true) 0 cmds).zip (vs.map .ok) ∧
        ∃ syncedSlaves, run.result = .ok ⟨vs, syncedSlaves⟩
  failed : (queueableCalls cmds).all node.accepts = true →
    (∃ e, .error e ∈ answers node.run st (queueableCalls cmds)) →
      (∃ e, run.delivered = (queuedIndexes (fun _ => true) 0 cmds).map (·, .error e)) ∧
        ∃ syncedSlaves, run.result = .ok ⟨[], syncedSlaves⟩
  aborted : (queueableCalls cmds).all node.accepts = false →
    run.delivered = (queuedIndexes node.accepts 0 cmds).map (·, .error Node.execAbort) ∧
      ∃ syncedSlaves, run.result = .ok ⟨[], syncedSlaves⟩

variable {node init conn home traffic} {svc : BatchService} {env : PoolEnvironment}
  {timeout : String} {cmds : List RedisCommand} {call : Call} {calls : List Call}

namespace QueueDelivery

theorem replied_prefix (h : QueueDelivery node init conn home traffic svc env timeout cmds)
    (rs : List Call) {ms : List (Message Call)}
    (hmerged : requestsAt (conn home) traffic = (.multi :: rs.map .request) ++ ms) :
    env.accepts 0 = true ∧ ∀ (j : Nat) call, rs[j]? = some call →
      env.accepts (j + 1) = node.accepts call := by
  obtain ⟨later, hanswers⟩ := opening_answers node.run node.accepts h.idle hmerged
  have hopened := h.replied 0 .opened (by rw [hanswers]; rfl)
  refine ⟨by simp [PoolEnvironment.accepts, hopened, Node.render], fun j call hj => ?_⟩
  have hlen : j < rs.length := (List.getElem?_eq_some_iff.mp hj).1
  have hanswer := h.replied (j + 1) (if node.accepts call then .queued else .refused) (by
    rw [hanswers, List.getElem?_append_left (by simp [hlen])]
    simp [hj])
  cases haccepts : node.accepts call with
  | true => simp [PoolEnvironment.accepts, hanswer, haccepts, Node.render]
  | false => simp [PoolEnvironment.accepts, hanswer, haccepts, Node.render]

theorem message_request {c : Call} (hc : c ∈ queueableCalls cmds) : c.message = .request c := by
  obtain ⟨cmd, -, rfl⟩ := List.mem_map.mp hc
  exact message_executeOn cmd

/-- A first command that the server takes opens the transaction, to which all others belong. -/
theorem messages (h : QueueDelivery node init conn home traffic svc env timeout cmds)
    (hc : queueableCalls cmds = call :: calls) (hcall : node.accepts call = true) :
    ∃ waits, requestsAt (conn home) traffic =
      (.multi :: (queueableCalls cmds).map .request) ++ .exec :: waits := by
  have hrequest : call.message = .request call := message_request (by rw [hc]; exact List.mem_cons_self)
  have hmulti : env.accepts 0 = true := by
    obtain ⟨slot, rest, hrest⟩ := @queueCalls_multi env _ 0 none _ _ hc
    have hmerged := h.merged
    rw [batchCalls, hrest, List.cons_append, List.map_cons] at hmerged
    exact (h.replied_prefix [] hmerged).1
  have hfirst : env.accepts 1 = true := by
    obtain ⟨slot, rest, hrest⟩ := @queueCalls_command env _ 0 none _ _ hc hmulti
    have hmerged := h.merged
    rw [batchCalls, hrest, List.cons_append, List.cons_append, List.map_cons, List.map_cons,
      hrequest] at hmerged
    exact ((h.replied_prefix [call] hmerged).2 0 call rfl).trans hcall
  obtain ⟨o, hopen, hqueue⟩ := @queueCalls_opened env _ 0 none _ _ hc hmulti hfirst
  have hcalls : ((call :: calls).map (Prod.mk Purpose.command)).map (fun w => w.2.message) =
      (queueableCalls cmds).map .request := by
    rw [hc, List.map_map]
    exact List.map_congr_left fun c hm => message_request (by rwa [hc])
  refine ⟨(waitCalls svc o.slot).map Call.message, ?_⟩
  rw [h.merged, batchCalls, hqueue, hopen, List.map_append, List.map_cons, hcalls]
  simp [Ending.calls, Function.comp_def, multiCall, execCall, Call.message]

end QueueDelivery

section Report

variable {s : RedisBased} {st : σ}

theorem executeInner_array (hs : svc.options.skipResult = false) (he : s.entries ≠ [])
    (hsorted : s.entries.Pairwise (· < ·)) {vs : List Value} (hlen : vs.length = s.entries.length)
    (hexec : env.reply s.picks = .ok (.array vs)) :
    (executeInner svc env s).delivered = s.entries.zip (vs.map .ok) ∧
      ∃ syncedSlaves, (executeInner svc env s).result = .ok ⟨vs, syncedSlaves⟩ := by
  have hpairwise : (s.entries.zip vs).Pairwise fun a b => decide (a.1 ≤ b.1) = true := by
    have hfst : ((s.entries.zip vs).map Prod.fst).Pairwise (· < ·) := by
      rwa [List.map_fst_zip (by omega)]
    exact (List.pairwise_map.mp hfst).imp fun h => by simpa using Nat.le_of_lt h
  have hsame : ((s.entries.zip vs).mergeSort fun a b => a.1 ≤ b.1).map Prod.snd = vs := by
    rw [List.mergeSort_of_pairwise hpairwise, List.map_snd_zip (by omega)]
  simp [executeInner, he, hs, hexec, hsame]

theorem executeInner_error (hs : svc.options.skipResult = false) (he : s.entries ≠ []) {e : Error}
    (hexec : env.reply s.picks = .error e) :
    (executeInner svc env s).delivered = s.entries.map (·, .error e) ∧
      ∃ syncedSlaves, (executeInner svc env s).result = .ok ⟨[], syncedSlaves⟩ := by
  simp [executeInner, he, hs, hexec]

theorem queueReported (hs : svc.options.skipResult = false)
    (he : s.entries = queuedIndexes node.accepts 0 cmds) (hentries : s.entries ≠ [])
    (hexec : env.reply s.picks =
      node.render (execute node.run node.accepts st (queueableCalls cmds)).2) :
    QueueReported node cmds (executeInner svc env s) st := by
  refine ⟨fun hall vs hvs => ?_, fun hall hbad => ?_, fun hall => ?_⟩
  · rw [execute, if_pos hall, Node.render, hvs, node.present_values] at hexec
    have hlen : vs.length = s.entries.length := by
      have hanswers := congrArg List.length hvs
      rw [answers_length, List.length_map] at hanswers
      rw [he, queuedIndexes_of_all hall, queuedIndexes_length, hanswers]
    rw [← queuedIndexes_of_all hall, ← he]
    exact executeInner_array hs hentries (he ▸ queuedIndexes_pairwise) hlen hexec
  · rw [execute, if_pos hall, Node.render] at hexec
    obtain ⟨e, herror⟩ := node.present_error _ hbad
    rw [← queuedIndexes_of_all hall, ← he]
    have hreport := executeInner_error hs hentries (hexec.trans herror)
    exact ⟨⟨e, hreport.1⟩, hreport.2⟩
  · rw [execute, if_neg (by simp [hall])] at hexec
    rw [← he]
    exact executeInner_error hs hentries hexec

end Report

/-- Where the sends of the batch have one connection to themselves and its first command is
accepted, the batch runs as one step, all or nothing, at the moment its EXEC arrives. Its callers
learn what that step has answered, and the result lists the values or, if there is an error among
them or the step was aborted, nothing. -/
theorem redisBased_batch_isolated (hs : svc.options.skipResult = false)
    (hc : queueableCalls cmds = call :: calls) (hcall : node.accepts call = true)
    (hd : QueueDelivery node init conn home traffic svc env timeout cmds) :
    ∃ u v, traffic = u ++ (conn home, .exec) :: v ∧
      let before := after (step node.run node.accepts) init (without (conn home) u)
      after (step node.run node.accepts) init traffic =
          after (step node.run node.accepts) (before.withStore
            (execute node.run node.accepts before.store (queueableCalls cmds)).1) v ∧
        QueueReported node cmds
          (executeRedisBasedQueue svc env timeout none (queueAll svc env .new cmds).1)
          before.store := by
  obtain ⟨waits, hmessages⟩ := hd.messages hc hcall
  obtain ⟨hmulti, hacc⟩ := hd.replied_prefix _ hmessages
  have hfirst : env.accepts 1 = true := by
    rw [hacc 0 call (by rw [hc]; rfl), hcall]
  have hentries : (queueAll svc env .new cmds).1.entries = queuedIndexes node.accepts 0 cmds := by
    refine queueAll_entries cmds hmulti (fun c h => ?_) hacc
    rw [hc] at h
    exact Option.some.inj h ▸ hcall
  obtain ⟨o, hopen, hqueue⟩ := @queueCalls_opened env _ 0 none _ _ hc hmulti hfirst
  obtain ⟨-, hpicks, hopened⟩ := @queueAll_empty svc env .new cmds rfl
  simp only [RedisBased.new] at hpicks hopened
  rw [hopen] at hopened
  obtain ⟨u, v, huv, -, hafter, hanswers, -⟩ :=
    transaction_isolated node.run node.accepts hd.idle hmessages
  refine ⟨u, v, huv, hafter, queueReported hs hentries hopened.1 ?_⟩
  have hlen : (queueAll svc env .new cmds).1.picks = (queueableCalls cmds).length + 1 := by
    rw [RedisBased.new, hpicks, hqueue, hc]
    simp
  rw [hlen]
  refine hd.replied _ _ ?_
  rw [hanswers, List.getElem?_append_right (by simp)]
  simp

end Delivery

/-! Two increments around a WAIT, over a pool of one client. Another connection gets a command
in before each of them; the node numbers the commands it runs. -/

def twoIncrements : List RedisCommand :=
  [.hIncrBy (utf8Bytes "foo") (utf8Bytes "hits") 1, .wait 1 0,
    .hIncrBy (utf8Bytes "foo") (utf8Bytes "hits") 1]

def PoolEnvironment.withReplies (env : PoolEnvironment) (replies : List Reply) : PoolEnvironment :=
  { env with reply := fun n => replies.getD n (.ok .null) }

def incrementPool : PoolEnvironment := (idlePool 1 Nat.one_pos).withReplies
  [.ok (.string "OK"), .ok .queued, .ok .queued, .ok (.array [.integer 2, .integer 3])]

def incrementTraffic : List (Bool × Message Call) :=
  [(true, .multi), (false, .request (.method "ping" [])),
    (true, .request (RedisCommand.executeOn (.hIncrBy (utf8Bytes "foo") (utf8Bytes "hits") 1))),
    (false, .request (.method "ping" [])),
    (true, .request (RedisCommand.executeOn (.hIncrBy (utf8Bytes "foo") (utf8Bytes "hits") 1))),
    (true, .exec)]

theorem redisBased_batch_isolated_twoIncrements :
    ∃ u v, incrementTraffic = u ++ (true, .exec) :: v ∧
      let before := after (step numberingNode.run numberingNode.accepts) ⟨0, fun _ => none⟩
        (without true u)
      after (step numberingNode.run numberingNode.accepts) ⟨0, fun _ => none⟩ incrementTraffic =
        after (step numberingNode.run numberingNode.accepts) (before.withStore
          (execute numberingNode.run numberingNode.accepts before.store
            (queueableCalls twoIncrements)).1) v ∧
      QueueReported numberingNode twoIncrements
        (executeRedisBasedQueue writeAtomicService incrementPool "3s" none
          (queueAll writeAtomicService incrementPool .new twoIncrements).1) before.store := by
  have hd : QueueDelivery numberingNode ⟨0, fun _ => none⟩ (fun _ : Connection => true)
      ⟨0, upperNode⟩ incrementTraffic writeAtomicService incrementPool "3s" twoIncrements := by
    refine ⟨by decide +kernel, rfl, rfl, fun n a h => ?_⟩
    have hanswers : answersAt (step numberingNode.run numberingNode.accepts)
        ⟨0, fun _ => none⟩ incrementTraffic true =
          [.opened, .queued, .queued, .executed [.ok (.integer 2), .ok (.integer 3)]] := rfl
    rw [hanswers] at h
    rcases n with - | - | - | - | n <;> cases h <;> rfl
  exact redisBased_batch_isolated rfl rfl rfl hd

end Redisson
