import Redisson.TransactionIntegrity
import Mathlib.Data.List.Nodup
import Mathlib.Data.List.ReduceOption

/-! Which commands an EXEC executes: those that its connection has queued since the MULTI that
opened its transaction, whoever sent them. -/

namespace Redisson

/-- What a use of the connection by somebody else does to the commands queued in its
transaction, which are those of the batch by their picks and those of others unnamed. -/
def OtherUse.queues (queued : Option (List (Option Nat))) : OtherUse → Option (List (Option Nat))
  | multi => some (queued.getD [])
  | command => queued.map (· ++ [none])
  | exec | discard | lost => none

/-- What an accepted send of the batch at pick `n` does to them. MULTI is accepted only where no
transaction is open. -/
def Purpose.queues (n : Nat) (queued : Option (List (Option Nat))) :
    Purpose → Option (List (Option Nat))
  | multi => some []
  | command => queued.map (· ++ [some n])
  | exec => none
  -- sent after EXEC only, outside the transaction
  | wait => queued

/-- The commands queued on a connection, if it is in a transaction. -/
def queuedOn (conn : Connection) :
    Option (List (Option Nat)) → List Traffic → Option (List (Option Nat))
  | queued, [] => queued
  | queued, .other c :: ts => queuedOn conn (if c.conn = conn then c.use.queues queued else queued) ts
  | queued, .own n s :: ts =>
    queuedOn conn (if s.conn = conn ∧ s.ok then s.purpose.queues n queued else queued) ts

def Traffic.accepted : Traffic → Option Nat
  | .other _ => none
  | .own n s => if s.purpose = .command ∧ s.ok then some n else none

section Executed

variable (svc : BatchService) (env : PoolEnvironment)

/-- The index and the pick of each accepted command. -/
def sentAt : RedisBased → List RedisCommand → List (Nat × Nat)
  | _, [] => []
  | s, cmd :: cmds =>
    let (s', _, result) := queueCommand svc env s cmd
    match result with
    | .ok () => (s.nextIndex, s'.picks - 1) :: sentAt s' cmds
    | .error _ => sentAt s' cmds

def untilExec (others : Nat → List OtherCall) (cmds : List RedisCommand) : List Traffic :=
  let (s, sends) := queueAll svc env .new cmds
  interleave others 0 sends ++ (others s.picks).map .other

/-- The commands that the EXEC of a batch finds queued on its connection. -/
def executed (others : Nat → List OtherCall) (cmds : List RedisCommand) :
    Option (List (Option Nat)) :=
  queuedOn (execSend svc env (queueAll svc env .new cmds).1).conn none
    (untilExec svc env others cmds)

/-- EXEC executes the accepted commands of the batch, in their order, and nothing else. -/
def ExecutesOwn (others : Nat → List OtherCall) (cmds : List RedisCommand) : Prop :=
  executed svc env others cmds = some ((sentAt svc env .new cmds).map fun p => some p.2)

end Executed

section Lemmas

variable {svc : BatchService} {env : PoolEnvironment} {others : Nat → List OtherCall}

@[simp] theorem accepted_others (cs : List OtherCall) :
    (cs.map Traffic.other).filterMap Traffic.accepted = [] := by
  simp [List.filterMap_map, Function.comp_def, Traffic.accepted]

theorem accepted_interleave_cons (n : Nat) (s : Send) (sends : List Send) :
    (interleave others n (s :: sends)).filterMap Traffic.accepted =
      (if s.purpose = .command ∧ s.ok then [n] else []) ++
        (interleave others (n + 1) sends).filterMap Traffic.accepted := by
  rw [interleave, List.filterMap_append, accepted_others, List.nil_append, List.filterMap_cons]
  by_cases h : s.purpose = .command ∧ s.ok = true <;> simp [Traffic.accepted, h]

/-- An accepted command is listed, with the pick of its send, and a refused one is not. -/
theorem queueCommand_spec (s : RedisBased) (cmd : RedisCommand) :
    let r := queueCommand svc env s cmd
    r.1.nextIndex = s.nextIndex + 1 ∧ r.1.picks = s.picks + r.2.1.length ∧
      match r.2.2 with
      | .ok () => r.1.entries = s.entries ++ [s.nextIndex] ∧ 0 < r.2.1.length ∧
          (interleave others s.picks r.2.1).filterMap Traffic.accepted = [r.1.picks - 1]
      | .error _ => r.1.entries = s.entries ∧
          (interleave others s.picks r.2.1).filterMap Traffic.accepted = [] := by
  have hnil : ∀ n, (interleave others n []).filterMap Traffic.accepted = [] := fun _ => rfl
  cases hw : isWaitCommand cmd with
  | true => simp [queueCommand, hw, hnil]
  | false =>
    by_cases he : s.entries = []
    · cases hm : env.reply s.picks with
      | error e => simp [queueCommand, hw, openTransaction, he, hm, accepted_interleave_cons, send, hnil]
      | ok v =>
        cases hr : env.reply (s.picks + 1) <;>
          simp [queueCommand, hw, openTransaction, he, hm, hr, accepted_interleave_cons, send, hnil,
            PoolEnvironment.accepts]
    · cases hr : env.reply s.picks <;>
        simp [queueCommand, hw, openTransaction, he, hr, accepted_interleave_cons, send, hnil,
          PoolEnvironment.accepts]

/-- The entries are the indexes of the accepted commands, in the order of their sends. -/
theorem queueAll_sentAt (s : RedisBased) (cmds : List RedisCommand) :
    (queueAll svc env s cmds).1.entries = s.entries ++ (sentAt svc env s cmds).map Prod.fst ∧
      (interleave others s.picks (queueAll svc env s cmds).2).filterMap Traffic.accepted =
        (sentAt svc env s cmds).map Prod.snd ∧
      (queueAll svc env s cmds).1.picks = s.picks + (queueAll svc env s cmds).2.length := by
  induction cmds generalizing s with
  | nil => simp [queueAll, sentAt, interleave]
  | cons cmd cmds ih =>
    obtain ⟨hindex, hpicks, hresult⟩ := @queueCommand_spec svc env others s cmd
    obtain ⟨ihe, iha, ihp⟩ := ih (queueCommand svc env s cmd).1
    simp only [queueAll, sentAt, interleave_append, List.filterMap_append, List.length_append,
      ← hpicks, iha, ihe]
    cases hr : (queueCommand svc env s cmd).2.2 with
    | ok u =>
      rw [hr] at hresult
      obtain ⟨hentries, -, haccepted⟩ := hresult
      exact ⟨by simp [hentries], by simp [haccepted], by rw [ihp, hpicks, Nat.add_assoc]⟩
    | error e =>
      rw [hr] at hresult
      obtain ⟨hentries, haccepted⟩ := hresult
      exact ⟨by simp [hentries], by simp [haccepted], by rw [ihp, hpicks, Nat.add_assoc]⟩

theorem untilExec_accepted (cmds : List RedisCommand) :
    (untilExec svc env others cmds).filterMap Traffic.accepted =
      (sentAt svc env .new cmds).map Prod.snd := by
  obtain ⟨-, hsends, -⟩ := @queueAll_sentAt svc env others .new cmds
  rw [untilExec, List.filterMap_append, accepted_others, List.append_nil]
  exact hsends

end Lemmas

/-! A transaction that is kept, and in which nobody else has a command, is what EXEC executes. -/

/-- Of others the connection gets nothing but MULTI, which is refused inside a transaction. -/
def Undisturbed (conn : Connection) (cs : List OtherCall) : Prop :=
  ∀ c ∈ cs, c.conn = conn → c.use = .multi

section Kept

variable {svc : BatchService} {env : PoolEnvironment} {others : Nat → List OtherCall}
  {conn : Connection}

theorem queuedOn_append (queued : Option (List (Option Nat))) (ts ts' : List Traffic) :
    queuedOn conn queued (ts ++ ts') = queuedOn conn (queuedOn conn queued ts) ts' := by
  induction ts generalizing queued with
  | nil => rfl
  | cons t ts ih => cases t <;> simp only [List.cons_append, queuedOn, ih]

theorem queuedOn_undisturbed {l : List (Option Nat)} {cs : List OtherCall}
    (h : Undisturbed conn cs) : queuedOn conn (some l) (cs.map .other) = some l := by
  induction cs with
  | nil => rfl
  | cons c cs ih =>
    obtain ⟨hc, hcs⟩ := List.forall_mem_cons.mp h
    have hsame : (if c.conn = conn then c.use.queues (some l) else some l) = some l := by
      by_cases hconn : c.conn = conn
      · rw [if_pos hconn, hc hconn]
        rfl
      · rw [if_neg hconn]
    rw [List.map_cons, queuedOn, hsame, ih hcs]

/-- The accepted commands that go to the connection of an open transaction are queued in it. -/
theorem queuedOn_commands {n : Nat} {l : List (Option Nat)} {sends : List Send}
    (hsends : ∀ s ∈ sends, s.purpose = .command ∧ (s.ok = true → s.conn = conn))
    (hothers : ∀ k < sends.length, Undisturbed conn (others (n + k))) :
    queuedOn conn (some l) (interleave others n sends) =
      some (l ++ ((interleave others n sends).filterMap Traffic.accepted).map some) := by
  induction sends generalizing n l with
  | nil => simp [interleave, queuedOn]
  | cons s sends ih =>
    obtain ⟨⟨hp, hconn⟩, hsends⟩ := List.forall_mem_cons.mp hsends
    have hrest : ∀ k < sends.length, Undisturbed conn (others (n + 1 + k)) := fun k hk => by
      have hshift : n + 1 + k = n + (k + 1) := by omega
      exact hshift ▸ hothers (k + 1) (by simpa using hk)
    have hfirst : Undisturbed conn (others n) := hothers 0 (by simp)
    rw [accepted_interleave_cons, interleave, queuedOn_append, queuedOn_undisturbed hfirst, queuedOn]
    cases hok : s.ok with
    | true => simp [hp, hconn hok, Purpose.queues, @ih (n + 1) _ hsends hrest]
    | false => simp [@ih (n + 1) _ hsends hrest]

theorem accepted_interleave_nil {n : Nat} {sends : List Send}
    (h : ∀ s ∈ sends, s.purpose = .command → s.ok = false) :
    (interleave others n sends).filterMap Traffic.accepted = [] := by
  induction sends generalizing n with
  | nil => rfl
  | cons s sends ih =>
    obtain ⟨hs, hsends⟩ := List.forall_mem_cons.mp h
    have hrefused : ¬ (s.purpose = .command ∧ s.ok = true) := fun ⟨hp, hok⟩ => by
      rw [hs hp] at hok
      cases hok
    rw [accepted_interleave_cons, if_neg hrefused, ih hsends, List.nil_append]

/-- Before the MULTI of the transaction that comes about no command is accepted. -/
theorem queueCalls_eq_of_opening {n : Nat} {slot : Option Slot} {cmds : List RedisCommand}
    {o : Opening} (h : opening env n slot cmds = some o) :
    env.accepts o.pick = true ∧ ∃ before, queueCalls env n slot cmds =
        before ++ (.multi, multiCall o.slot) :: o.commands.map commandCall ∧
      n + before.length = o.pick ∧
      ∀ s ∈ sendAll svc env n before, s.purpose = .command → s.ok = false := by
  induction n, slot, cmds using queueing_induction env with
  | nil n slot => simp [opening] at h
  | wait n slot cmd cmds hw ih => simpa [queueCalls, hw] using ih (by simpa [opening, hw] using h)
  | opened n slot cmd cmds hw hm ha =>
    simp only [opening, hw, hm, ha, Bool.false_eq_true, if_false, if_true, Option.some.injEq] at h
    subst h
    exact ⟨hm, [], by simp [queueCalls, hw, hm, ha, queueable], rfl, by simp⟩
  | commandRefused n slot cmd cmds hw hm ha ih =>
    obtain ⟨hacc, before, hcalls, hlen, hrefused⟩ := ih (by simpa [opening, hw, hm, ha] using h)
    let slot' := (cmd.routingKey.map env.keyslot).or slot
    refine ⟨hacc, (.multi, multiCall (slot'.getD 0)) :: commandCall cmd :: before, ?_, ?_, ?_⟩
    · simp [queueCalls, hw, hm, ha, hcalls, slot']
    · simp only [List.length_cons]
      omega
    · simpa [send, commandCall, ha] using hrefused
  | multiRefused n slot cmd cmds hw hm ih =>
    obtain ⟨hacc, before, hcalls, hlen, hrefused⟩ := ih (by simpa [opening, hw, hm] using h)
    let slot' := (cmd.routingKey.map env.keyslot).or slot
    refine ⟨hacc, (.multi, multiCall (slot'.getD 0)) :: before, ?_, ?_, ?_⟩
    · simp [queueCalls, hw, hm, hcalls, slot']
    · simp only [List.length_cons]
      omega
    · simpa [send] using hrefused

/-- An aligned batch whose connection is not disturbed between its MULTI and its EXEC executes its
own commands. -/
theorem executesOwn_of_aligned {cmds : List RedisCommand} {o : Opening}
    (ho : opening env 0 none cmds = some o) (ha : Aligned svc env others none o)
    (hothers : ∀ k ≤ o.commands.length, Undisturbed (o.home svc env) (others (o.pick + 1 + k))) :
    ExecutesOwn svc env others cmds := by
  obtain ⟨hqueued, hpicks, hopened⟩ := @queueAll_empty svc env .new cmds rfl
  obtain ⟨hmulti, before, hcalls, hlen, hrefused⟩ := @queueCalls_eq_of_opening svc env _ _ _ _ ho
  change (queueAll svc env .new cmds).2 = sendAll svc env 0 (queueCalls env 0 none cmds) at hqueued
  change (queueAll svc env .new cmds).1.picks = 0 + (queueCalls env 0 none cmds).length at hpicks
  rw [show opening env RedisBased.new.picks RedisBased.new.slot cmds = some o from ho] at hopened
  rw [queueCalls_opening ho] at hpicks
  rw [Nat.zero_add] at hlen
  have hconn : (execSend svc env (queueAll svc env .new cmds).1).conn = o.home svc env := by
    rw [execSend, hpicks, hopened.2]
    exact send_conn_eq_iff.mpr (ha.exec (by simp)).1
  have hcommands : ∀ s ∈ sendAll svc env (o.pick + 1) (o.commands.map commandCall),
      s.purpose = .command ∧ (s.ok = true → s.conn = o.home svc env) := by
    intro s hs
    obtain ⟨i, hi⟩ := List.mem_iff_getElem?.mp hs
    rw [sendAll_getElem?, List.getElem?_map, Option.map_map, Option.map_eq_some_iff] at hi
    obtain ⟨cmd, hcmd, rfl⟩ := hi
    exact ⟨rfl, fun hok => send_conn_eq_iff.mpr (ha.commands i cmd hcmd hok).1⟩
  have huntil : untilExec svc env others cmds = interleave others 0 (sendAll svc env 0 before) ++
      interleave others o.pick (send svc env o.pick .multi (multiCall o.slot) ::
        sendAll svc env (o.pick + 1) (o.commands.map commandCall)) ++
      (others (o.pick + 1 + o.commands.length)).map .other := by
    change interleave others 0 (queueAll svc env .new cmds).2 ++
      (others (queueAll svc env .new cmds).1.picks).map .other = _
    rw [hpicks, hqueued, hcalls, sendAll_append, sendAll_cons, interleave_append, sendAll_length,
      Nat.zero_add, hlen]
  have haccepted : (interleave others (o.pick + 1) (sendAll svc env (o.pick + 1)
      (o.commands.map commandCall))).filterMap Traffic.accepted =
        (sentAt svc env .new cmds).map Prod.snd := by
    rw [← @untilExec_accepted svc env others cmds, huntil, List.filterMap_append,
      List.filterMap_append, accepted_interleave_nil hrefused, accepted_interleave_cons,
      accepted_others]
    simp [send]
  have hopens : ∀ queued, queuedOn (o.home svc env) queued
      (.own o.pick (send svc env o.pick .multi (multiCall o.slot)) ::
        interleave others (o.pick + 1) (sendAll svc env (o.pick + 1)
          (o.commands.map commandCall))) =
      some ((sentAt svc env .new cmds).map fun p => some p.2) := by
    intro queued
    have hfirst : (if (send svc env o.pick .multi (multiCall o.slot)).conn = o.home svc env ∧
        (send svc env o.pick .multi (multiCall o.slot)).ok = true then
          Purpose.queues o.pick queued .multi else queued) = some [] := if_pos ⟨rfl, hmulti⟩
    have hkept := @queuedOn_commands others (o.home svc env) (o.pick + 1) [] _ hcommands
      fun k hk => hothers k (by simpa using Nat.le_of_lt hk)
    rw [haccepted, List.nil_append, List.map_map] at hkept
    exact (congrArg (queuedOn _ · _) hfirst).trans hkept
  rw [ExecutesOwn, executed, hconn, huntil, queuedOn_append, queuedOn_append, interleave,
    queuedOn_append, hopens]
  exact queuedOn_undisturbed (hothers _ (Nat.le_refl _))

end Kept

end Redisson
