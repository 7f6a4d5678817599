import Redisson.PoolTraffic

/-! Which runs of a Redis-based batch keep MULTI, the accepted commands and EXEC in one
transaction. The pool moves on at every pick, every call chooses its own node, and others use the
same connections in between. -/

namespace Redisson

section Alignment

variable (svc : BatchService) (env : PoolEnvironment) (others : Nat → List OtherCall)

/-- The pool hands out one client at both picks, and the two slots are served by one node. -/
def Meets (n : Nat) (slot : Option Slot) (m : Nat) (slot' : Slot) : Prop :=
  env.ticket n % env.size = env.ticket m % env.size ∧
    nodeOf svc env n slot = nodeOf svc env m (some slot')

/-- The connection that MULTI was sent on. -/
def Opening.home (o : Opening) : Connection :=
  (send svc env o.pick .multi (multiCall o.slot)).conn

/-- Until the `i`-th pick after that of MULTI nobody else has ended a transaction on its
connection. -/
def Opening.KeptOpen (o : Opening) (i : Nat) : Prop :=
  ∀ k ≤ i, LeaveOpen (o.home svc env) (others (o.pick + 1 + k))

/-- Each accepted command, and EXEC if it is sent, meets the connection of MULTI, still open. -/
structure Aligned (timesOut : Option AwaitPoint) (o : Opening) : Prop where
  commands : ∀ (i : Nat) cmd, o.commands[i]? = some cmd → env.accepts (o.pick + 1 + i) →
    Meets svc env (o.pick + 1 + i) ((RedisCommand.executeOn cmd).slot env.keyslot) o.pick o.slot ∧
      o.KeptOpen svc env others i
  exec : timesOut ≠ some .lock →
    Meets svc env (o.pick + 1 + o.commands.length) (some o.slot) o.pick o.slot ∧
      o.KeptOpen svc env others o.commands.length

end Alignment

section Runs

variable {svc : BatchService} {env : PoolEnvironment} {others : Nat → List OtherCall}

theorem send_conn_eq_iff {n m : Nat} {purpose purpose' : Purpose} {call : Call} {slot : Slot} :
    (send svc env n purpose call).conn = (send svc env m purpose' (multiCall slot)).conn ↔
      Meets svc env n (call.slot env.keyslot) m slot := by
  simp [send, Meets, PoolEnvironment.client, multiCall, Call.slot]

theorem send_bound {n : Nat} {purpose : Purpose} {call : Call} :
    (send svc env n purpose call).Bound ↔
      purpose = .exec ∨ purpose = .command ∧ env.accepts n = true := Iff.rfl

theorem inTransaction_multi {n : Nat} {call : Call} {opened : Option Connection}
    (sends : List Send) : ∃ opened', InTransaction opened
      (interleave others n (send svc env n .multi call :: sends)) ↔
        InTransaction (if env.accepts n then some (send svc env n .multi call).conn else opened')
          (interleave others (n + 1) sends) := by
  have hmulti : ∀ opened', InTransaction opened'
      (.own n (send svc env n .multi call) :: interleave others (n + 1) sends) ↔
        InTransaction (if env.accepts n then some (send svc env n .multi call).conn else opened')
          (interleave others (n + 1) sends) := fun _ => Iff.rfl
  cases opened with
  | none => exact ⟨none, (inTransaction_others_none _ _).trans (hmulti _)⟩
  | some home => exact ⟨_, (inTransaction_others _ _).trans (hmulti _)⟩

/-- A refused command asks for nothing. -/
theorem inTransaction_refused {n : Nat} {call : Call} {opened : Option Connection}
    (sends : List Send) (hr : env.accepts n = false) : ∃ opened', InTransaction opened
      (interleave others n (send svc env n .command call :: sends)) ↔
        InTransaction opened' (interleave others (n + 1) sends) := by
  have hrefused : ¬ (send svc env n .command call).Bound := by simp [send_bound, hr]
  have hcommand : ∀ opened', InTransaction opened'
      (.own n (send svc env n .command call) :: interleave others (n + 1) sends) ↔
        InTransaction opened' (interleave others (n + 1) sends) := fun _ =>
    (inTransaction_own (by simp [send])).trans (and_iff_right fun h => absurd h hrefused)
  cases opened with
  | none => exact ⟨none, (inTransaction_others_none _ _).trans (hcommand _)⟩
  | some home => exact ⟨_, (inTransaction_others _ _).trans (hcommand _)⟩

/-- The sends from the first accepted command on. -/
def Opening.rest (svc : BatchService) (timesOut : Option AwaitPoint) (o : Opening) :
    List (Purpose × Call) :=
  o.commands.map commandCall ++ (Ending.execute timesOut).calls svc o.slot

theorem Opening.rest_no_multi {timesOut : Option AwaitPoint} {o : Opening} :
    ∀ s ∈ sendAll svc env (o.pick + 1) (o.rest svc timesOut), s.purpose ≠ .multi := by
  intro s hs
  obtain ⟨i, hi⟩ := List.mem_iff_getElem?.mp hs
  rw [sendAll_getElem?, Option.map_eq_some_iff] at hi
  obtain ⟨w, hw, rfl⟩ := hi
  rcases List.mem_append.mp (List.mem_of_getElem? hw) with hw | hw
  · obtain ⟨cmd, -, rfl⟩ := List.mem_map.mp hw
    simp [send, commandCall]
  · exact Ending.calls_no_multi w hw

theorem sendsExec_of_ne_lock {timesOut : Option AwaitPoint} (h : timesOut ≠ some .lock) :
    (Ending.execute timesOut).SendsExec := by
  cases timesOut with
  | none => trivial
  | some point =>
    cases point with
    | lock => exact absurd rfl h
    | exec => trivial
    | wait => trivial

/-- After the commands comes EXEC, unless the execution has timed out before, and then only
WAIT. -/
theorem Opening.rest_exec {timesOut : Option AwaitPoint} {o : Opening} (h : timesOut ≠ some .lock) :
    ∃ waits, o.rest svc timesOut = o.commands.map commandCall ++ (.exec, execCall o.slot) :: waits ∧
      ∀ w ∈ waits, w.1 = .wait := by
  obtain ⟨waits, hcalls, hwaits⟩ :=
    @Ending.calls_of_sendsExec svc o.slot _ (sendsExec_of_ne_lock h)
  exact ⟨waits, by rw [Opening.rest, hcalls], hwaits⟩

/-- The transaction that comes about is kept exactly when it is aligned. -/
theorem inTransaction_rest {timesOut : Option AwaitPoint} {o : Opening} :
    InTransaction (some (o.home svc env))
        (interleave others (o.pick + 1) (sendAll svc env (o.pick + 1) (o.rest svc timesOut))) ↔
      Aligned svc env others timesOut o := by
  have hget : ∀ (i : Nat) s, (sendAll svc env (o.pick + 1) (o.rest svc timesOut))[i]? = some s ↔
      ∃ w, (o.rest svc timesOut)[i]? = some w ∧ send svc env (o.pick + 1 + i) w.1 w.2 = s := by
    intro i s
    rw [sendAll_getElem?, Option.map_eq_some_iff]
  have hconn : ∀ {n : Nat} {purpose : Purpose} {call : Call},
      (send svc env n purpose call).conn = o.home svc env ↔
        Meets svc env n (call.slot env.keyslot) o.pick o.slot := send_conn_eq_iff
  have hcommand : ∀ (i : Nat) w, i < o.commands.length →
      ((o.rest svc timesOut)[i]? = some w ↔ ∃ cmd, o.commands[i]? = some cmd ∧ commandCall cmd = w) := by
    intro i w hlt
    rw [Opening.rest, List.getElem?_append_left (by simpa using hlt), List.getElem?_map,
      Option.map_eq_some_iff]
  rw [inTransaction_sends Opening.rest_no_multi]
  constructor
  · intro h
    refine ⟨fun i cmd hi hacc => ?_, fun hlock => ?_⟩
    · have hlt : i < o.commands.length := (List.getElem?_eq_some_iff.mp hi).1
      have hw := (hcommand i _ hlt).mpr ⟨cmd, hi, rfl⟩
      obtain ⟨hc, hk⟩ := h i _ ((hget i _).mpr ⟨_, hw, rfl⟩) (send_bound.mpr (.inr ⟨rfl, hacc⟩))
      exact ⟨hconn.mp hc, hk⟩
    · obtain ⟨waits, hrest, -⟩ := @Opening.rest_exec svc _ o hlock
      have hw : (o.rest svc timesOut)[o.commands.length]? = some (.exec, execCall o.slot) := by
        rw [hrest, List.getElem?_append_right (by simp)]
        simp
      obtain ⟨hc, hk⟩ := h _ _ ((hget _ _).mpr ⟨_, hw, rfl⟩) (send_bound.mpr (.inl rfl))
      exact ⟨hconn.mp hc, hk⟩
  · intro h i s hs hbound
    obtain ⟨w, hw, rfl⟩ := (hget i s).mp hs
    rw [send_bound] at hbound
    by_cases hlt : i < o.commands.length
    · obtain ⟨cmd, hi, rfl⟩ := (hcommand i w hlt).mp hw
      obtain ⟨hc, hk⟩ := h.commands i cmd hi (by simpa [commandCall] using hbound)
      exact ⟨hconn.mpr hc, hk⟩
    · have hlock : timesOut ≠ some .lock := by
        rintro rfl
        rw [Opening.rest, List.getElem?_append_right (by simpa using hlt)] at hw
        cases hw
      obtain ⟨waits, hrest, hwaits⟩ := @Opening.rest_exec svc _ o hlock
      rw [hrest, List.getElem?_append_right (by simpa using hlt), List.length_map] at hw
      cases hi : i - o.commands.length with
      | zero =>
        obtain rfl : i = o.commands.length := by omega
        rw [hi, List.getElem?_cons_zero] at hw
        cases hw
        obtain ⟨hc, hk⟩ := h.exec hlock
        exact ⟨hconn.mpr hc, hk⟩
      | succ k =>
        rw [hi, List.getElem?_cons_succ] at hw
        rw [hwaits w (List.mem_of_getElem? hw)] at hbound
        simp at hbound

/-- From an empty queue, a run is in its transaction exactly when the transaction that
comes about is aligned. -/
theorem inTransaction_calls {timesOut : Option AwaitPoint} {n : Nat} {slot : Option Slot}
    {cmds : List RedisCommand} {opened : Option Connection} :
    InTransaction opened (interleave others n (sendAll svc env n (queueCalls env n slot cmds ++
        match opening env n slot cmds with
        | some o => (Ending.execute timesOut).calls svc o.slot
        | none => []))) ↔
      ∀ o, opening env n slot cmds = some o → Aligned svc env others timesOut o := by
  induction n, slot, cmds using queueing_induction env generalizing opened with
  | nil n slot => simp [queueCalls, opening, interleave, InTransaction]
  | wait n slot cmd cmds hw ih => simpa [queueCalls, opening, hw] using @ih opened
  | opened n slot cmd cmds hw hm ha =>
    let o : Opening :=
      ⟨n, ((cmd.routingKey.map env.keyslot).or slot).getD 0, cmd :: queueable cmds⟩
    have ho : opening env n slot (cmd :: cmds) = some o := by
      simp [opening, hw, hm, ha, queueable, o]
    have hcalls : queueCalls env n slot (cmd :: cmds) =
        (.multi, multiCall o.slot) :: o.commands.map commandCall := by
      simp [queueCalls, hw, hm, ha, o]
    rw [ho, hcalls, List.cons_append, sendAll_cons]
    obtain ⟨opened', hmulti⟩ := @inTransaction_multi svc env others n (multiCall o.slot) opened
      (sendAll svc env (n + 1) (o.rest svc timesOut))
    rw [hm, if_pos rfl] at hmulti
    have hrest := @inTransaction_rest svc env others timesOut o
    exact hmulti.trans (hrest.trans (by simp))
  | commandRefused n slot cmd cmds hw hm ha ih =>
    simp only [queueCalls, opening, hw, hm, ha, Bool.false_eq_true, if_false, if_true,
      List.cons_append, sendAll_cons, commandCall]
    obtain ⟨_, hmulti⟩ := @inTransaction_multi svc env others n _ opened _
    obtain ⟨_, hrefused⟩ := inTransaction_refused _ ha
    exact hmulti.trans (hrefused.trans ih)
  | multiRefused n slot cmd cmds hw hm ih =>
    simp only [queueCalls, opening, hw, hm, Bool.false_eq_true, if_false, List.cons_append,
      sendAll_cons]
    obtain ⟨_, hmulti⟩ := @inTransaction_multi svc env others n _ opened _
    exact hmulti.trans ih

/-- MULTI, the accepted commands and EXEC of a batch are one transaction exactly when the pool
hands out the client of the MULTI at each of their picks, the wire form of each command belongs to
the node of the slot that MULTI was sent to, and nobody else ends the transaction before. -/
theorem inTransaction_batchSends_iff {svc : BatchService} {env : PoolEnvironment}
    {others : Nat → List OtherCall} {timeout : String} {timesOut : Option AwaitPoint}
    {cmds : List RedisCommand} :
    InTransaction none (interleave others 0 (batchSends svc env timeout timesOut cmds)) ↔
      ∀ o, opening env 0 none cmds = some o → Aligned svc env others timesOut o := by
  rw [batchSends_eq]
  exact inTransaction_calls

/-- With one client and no replicas only the routing of the commands and the other users of the
client matter. -/
theorem Aligned.of_single_client {timesOut : Option AwaitPoint} {o : Opening} (hsize : env.size = 1)
    (hw : isRead svc = false) (hkept : o.KeptOpen svc env others o.commands.length)
    (hr : ∀ cmd ∈ o.commands, ∃ slot, (RedisCommand.executeOn cmd).slot env.keyslot = some slot ∧
      env.owner slot = env.owner o.slot) : Aligned svc env others timesOut o := by
  refine ⟨fun i cmd hi _ => ⟨?_, fun k hk => ?_⟩, fun _ => ⟨?_, hkept⟩⟩
  · obtain ⟨slot, hslot, ho⟩ := hr cmd (List.mem_of_getElem? hi)
    exact ⟨by simp [hsize, Nat.mod_one], by simpa [hslot, nodeOf, hw] using ho⟩
  · have hlt : i < o.commands.length := (List.getElem?_eq_some_iff.mp hi).1
    exact hkept k (by omega)
  · exact ⟨by simp [hsize, Nat.mod_one], by simp [nodeOf, hw]⟩

/-- When the batch is the pool's only user, two or more clients always tear it apart. -/
theorem not_aligned_of_idle_pool {timesOut : Option AwaitPoint} {o : Opening} {cmd : RedisCommand}
    (hsize : 2 ≤ env.size) (hidle : ∀ n, env.ticket (n + 1) = env.ticket n + 1)
    (hc : o.commands[0]? = some cmd) (ha : env.accepts (o.pick + 1)) :
    ¬ Aligned svc env others timesOut o := by
  intro hh
  obtain ⟨⟨hmod, -⟩, -⟩ := hh.commands 0 cmd hc (by simpa using ha)
  rw [Nat.add_zero, hidle] at hmod
  have hlt : env.ticket o.pick % env.size < env.size := Nat.mod_lt _ env.size_pos
  rw [Nat.add_mod, Nat.mod_eq_of_lt (by omega : 1 < env.size)] at hmod
  by_cases hlast : env.ticket o.pick % env.size + 1 = env.size
  · rw [hlast, Nat.mod_self] at hmod
    omega
  · rw [Nat.mod_eq_of_lt (by omega)] at hmod
    omega

end Runs

/-! A write batch on the two-node cluster, whose owner is the only user of its pool, or shares its
one client with a transaction of somebody else. -/

/-- Another user's MULTI and EXEC between the first and the second command of a batch. -/
def foreignTransaction (n : Nat) : List OtherCall :=
  if n = 2 then [⟨⟨0, upperNode⟩, .multi⟩, ⟨⟨0, upperNode⟩, .exec⟩] else []

/-- Two clients part MULTI from its command; one client parts two keys of different nodes, and
lets another user execute the first command of two. -/
theorem set_leaves_transaction :
    ¬ InTransaction none (interleave (fun _ => []) 0
      (batchSends writeAtomicService (idlePool 2 (by omega)) "3s" none
        [.set (utf8Bytes "foo") (.string "1") none none])) ∧
    ¬ InTransaction none (interleave (fun _ => []) 0
      (batchSends writeAtomicService (idlePool 1 (by omega)) "3s" none
        [.set (utf8Bytes "foo") (.string "1") none none,
          .set (utf8Bytes "bar") (.string "2") none none])) ∧
    ¬ InTransaction none (interleave foreignTransaction 0
      (batchSends writeAtomicService (idlePool 1 (by omega)) "3s" none
        [.set (utf8Bytes "foo") (.string "1") none none, .get (utf8Bytes "foo")])) := by
  decide +kernel

end Redisson
