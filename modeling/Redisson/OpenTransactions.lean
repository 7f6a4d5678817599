import Redisson.RedisBasedPicks
import Redisson.Sessions

/-! The MULTI state that a Redis-based batch leaves behind on the server. The code never
asks for it: it infers it from the emptiness of its queue, and `discard_async`, a failed
first command and a timeout all end without EXEC. -/

namespace Redisson

open Sessions

/-- What becomes of the sends of a batch: whether Redis carries out the call of a pick, and
which connections go down after it, before the next pick or before the terminal call
returns. A call answered without an error has been carried out. -/
structure RedisSide (env : PoolEnvironment) where
  performs : Nat → Bool
  drops : Nat → Connection → Bool
  performs_of_accepts : ∀ n, env.accepts n = true → performs n = true

/-- The transaction open on each connection, with the picks of the commands queued in it. -/
abbrev Transactions := Connection → Option (List Nat)

namespace Transactions

def none : Transactions := fun _ => .none

/-- A nested MULTI is refused by Redis and leaves the transaction as it is. -/
def perform (ts : Transactions) (n : Nat) (x : Send) : Transactions :=
  match x.purpose with
  | .multi => Function.update ts x.conn (some ((ts x.conn).getD []))
  | .command => Function.update ts x.conn ((ts x.conn).map (· ++ [n]))
  | .exec => Function.update ts x.conn .none
  | .wait => ts

/-- The commands that an EXEC sent on the connection, by whomever, would carry out. -/
def pending (ts : Transactions) (c : Connection) : List Nat := (ts c).getD []

end Transactions

namespace RedisSide

variable {env : PoolEnvironment} (redis : RedisSide env)

def serve (n : Nat) (x : Send) (ts : Transactions) : Transactions := fun c =>
  if redis.drops n c then none else (if redis.performs n then ts.perform n x else ts) c

def serveAll : Nat → List Send → Transactions → Transactions
  | _, [], ts => ts
  | n, x :: xs, ts => serveAll (n + 1) xs (redis.serve n x ts)

def transactions (sends : List Send) : Transactions := redis.serveAll 0 sends .none

end RedisSide

/-- No connection is in MULTI state at the end, none was asked for MULTI while it was, and
nothing of a discarded batch can still be carried out. -/
structure LeavesNoTransaction {env : PoolEnvironment} (redis : RedisSide env) (ending : Ending)
    (sends : List Send) : Prop where
  closed : ∀ c, redis.transactions sends c = none
  unnested : ∀ (n : Nat) x, sends[n]? = some x → x.purpose = .multi →
    redis.transactions (sends.take n) x.conn = none
  inert : ending = .discard → ∀ c, (redis.transactions sends).pending c = []

section Picks

variable (svc : BatchService) (env : PoolEnvironment)

def connAt (n : Nat) (slot : Slot) : Connection := ⟨env.client n, nodeOf svc env n (some slot)⟩

/-- After pick `k` a transaction open on the connection is gone: the connection went down,
or `k` is the pick of the EXEC, which is sent there and carried out. -/
def EndsAt (redis : RedisSide env) (ending : Ending) (cmds : List RedisCommand) (k : Nat)
    (c : Connection) : Prop :=
  redis.drops k c = true ∨
    ∃ o, opening env 0 none cmds = some o ∧ ending.SendsExec ∧
      k = o.pick + 1 + o.commands.length ∧ connAt svc env k o.slot = c ∧ redis.performs k = true

end Picks

section Server

variable {env : PoolEnvironment} {redis : RedisSide env}

theorem RedisSide.serveAll_append {n : Nat} {xs ys : List Send} {ts : Transactions} :
    redis.serveAll n (xs ++ ys) ts = redis.serveAll (n + xs.length) ys (redis.serveAll n xs ts) := by
  induction xs generalizing n ts with
  | nil => rfl
  | cons x xs ih =>
    have hn : n + 1 + xs.length = n + (x :: xs).length := by
      simp only [List.length_cons]
      omega
    simp only [List.cons_append, RedisSide.serveAll, ih, hn]

variable (redis) (sends : List Send)

def Opens (n : Nat) (c : Connection) : Prop :=
  ∃ x, sends[n]? = some x ∧ x.purpose = .multi ∧ x.conn = c ∧ redis.performs n = true

def Closes (n : Nat) (c : Connection) : Prop :=
  redis.drops n c = true ∨
    ∃ x, sends[n]? = some x ∧ x.purpose = .exec ∧ x.conn = c ∧ redis.performs n = true

def AsksFor (n : Nat) (c : Connection) : Prop :=
  ∃ x, sends[n]? = some x ∧ x.purpose = .multi ∧ x.conn = c

variable {redis sends}

theorem isSome_serve {n : Nat} {x : Send} {ts : Transactions} {c : Connection}
    (hx : sends[n]? = some x) : (redis.serve n x ts c).isSome ↔
      ((ts c).isSome ∨ Opens redis sends n c) ∧ ¬ Closes redis sends n c := by
  simp only [Opens, Closes, hx, Option.some.injEq, exists_eq_left', RedisSide.serve]
  by_cases hd : redis.drops n c = true
  · simp [hd]
  · by_cases hp : redis.performs n = true
    · by_cases hc : x.conn = c
      · subst hc
        cases hpur : x.purpose <;> simp [hd, hp, Transactions.perform, hpur]
      · have hc' : c ≠ x.conn := fun h => hc h.symm
        cases hpur : x.purpose <;> simp [hd, hp, Transactions.perform, hpur, hc, hc']
    · simp [hd, hp]

theorem isSome_transactions {n : Nat} (hn : n ≤ sends.length) {c : Connection} :
    (redis.transactions (sends.take n) c).isSome ↔
      Sessions.IsOpen (Opens redis sends) (Closes redis sends) n c := by
  induction n generalizing c with
  | zero => simp [Sessions.IsOpen, RedisSide.transactions, RedisSide.serveAll, Transactions.none]
  | succ n ih =>
    have hlt : n < sends.length := by omega
    have hx : sends[n]? = some sends[n] := List.getElem?_eq_getElem hlt
    have hlen : 0 + (sends.take n).length = n := by
      rw [List.length_take]
      omega
    rw [List.take_succ_eq_append_getElem hlt, RedisSide.transactions, RedisSide.serveAll_append, hlen]
    simp only [RedisSide.serveAll, isSome_serve hx, Sessions.IsOpen]
    rw [← ih (by omega)]
    rfl

theorem leavesNoTransaction_iff_unnested {ending : Ending} :
    LeavesNoTransaction redis ending sends ↔
      (∀ c, ¬ Sessions.IsOpen (Opens redis sends) (Closes redis sends) sends.length c) ∧
      Unnested (Opens redis sends) (Closes redis sends) (AsksFor sends) sends.length := by
  have hend : ∀ c, redis.transactions sends c = none ↔
      ¬ Sessions.IsOpen (Opens redis sends) (Closes redis sends) sends.length c := by
    intro c
    rw [← isSome_transactions le_rfl, List.take_length]
    simp
  have hmid : ∀ n < sends.length, ∀ c, redis.transactions (sends.take n) c = none ↔
      ¬ Sessions.IsOpen (Opens redis sends) (Closes redis sends) n c := by
    intro n hn c
    rw [← isSome_transactions hn.le]
    simp
  constructor
  · intro h
    refine ⟨fun c => (hend c).mp (h.closed c), fun n hn c hask => ?_⟩
    obtain ⟨x, hx, hp, rfl⟩ := hask
    exact (hmid n hn _).mp (h.unnested n x hx hp)
  · rintro ⟨hclosed, hunnested⟩
    have hnone : ∀ c, redis.transactions sends c = none := fun c => (hend c).mpr (hclosed c)
    refine ⟨hnone, fun n x hx hp => ?_, fun _ c => by simp [Transactions.pending, hnone c]⟩
    have hn : n < sends.length := (List.getElem?_eq_some_iff.mp hx).1
    exact (hmid n hn _).mpr (hunnested n hn _ ⟨x, hx, hp, rfl⟩)

end Server

section Positions

variable {svc : BatchService} {env : PoolEnvironment} {timeout : String}

theorem asksFor_iff {ending : Ending} {cmds : List RedisCommand} {n : Nat} {c : Connection} :
    AsksFor (endedSends svc env timeout ending cmds) n c ↔
      ∃ slot, (n, slot) ∈ multis env 0 none cmds ∧ connAt svc env n slot = c := by
  simp only [AsksFor, endedSends_eq, sendAll_getElem?, Nat.zero_add, Option.map_eq_some_iff]
  constructor
  · rintro ⟨x, ⟨⟨purpose, call⟩, hw, rfl⟩, rfl, rfl⟩
    obtain ⟨slot, hm, rfl⟩ := batchCalls_multi.mp hw
    exact ⟨slot, hm, rfl⟩
  · rintro ⟨slot, hm, rfl⟩
    exact ⟨_, ⟨_, batchCalls_multi.mpr ⟨slot, hm, rfl⟩, rfl⟩, rfl, rfl⟩

theorem opens_iff {redis : RedisSide env} {ending : Ending} {cmds : List RedisCommand} {n : Nat}
    {c : Connection} : Opens redis (endedSends svc env timeout ending cmds) n c ↔
      ∃ slot, (n, slot) ∈ multis env 0 none cmds ∧ connAt svc env n slot = c ∧
        redis.performs n = true := by
  have hask := @asksFor_iff svc env timeout ending cmds n c
  constructor
  · rintro ⟨x, hx, hp, hc, hperf⟩
    obtain ⟨slot, hm, hslot⟩ := hask.mp ⟨x, hx, hp, hc⟩
    exact ⟨slot, hm, hslot, hperf⟩
  · rintro ⟨slot, hm, hslot, hperf⟩
    obtain ⟨x, hx, hp, hc⟩ := hask.mpr ⟨slot, hm, hslot⟩
    exact ⟨x, hx, hp, hc, hperf⟩

theorem closes_iff {redis : RedisSide env} {ending : Ending} {cmds : List RedisCommand} {n : Nat}
    {c : Connection} : Closes redis (endedSends svc env timeout ending cmds) n c ↔
      EndsAt svc env redis ending cmds n c := by
  simp only [Closes, EndsAt, endedSends_eq, sendAll_getElem?, Nat.zero_add, Option.map_eq_some_iff]
  refine or_congr_right ⟨?_, ?_⟩
  · rintro ⟨x, ⟨⟨purpose, call⟩, hw, rfl⟩, rfl, rfl, hperf⟩
    obtain ⟨o, ho, hs, hn, rfl⟩ := batchCalls_exec.mp hw
    exact ⟨o, ho, hs, hn, rfl, hperf⟩
  · rintro ⟨o, ho, hs, hn, rfl, hperf⟩
    exact ⟨_, ⟨_, batchCalls_exec.mpr ⟨o, ho, hs, hn, rfl⟩, rfl⟩, rfl, rfl, hperf⟩

/-- A Redis-based batch leaves no transaction behind exactly when each MULTI that Redis
carries out is followed, before the batch sends MULTI there again, by the loss of its
connection or by the EXEC, sent on the same connection and carried out. -/
theorem leavesNoTransaction_iff {redis : RedisSide env} {ending : Ending} {cmds : List RedisCommand} :
    LeavesNoTransaction redis ending (endedSends svc env timeout ending cmds) ↔
      ∀ m ∈ multis env 0 none cmds, redis.performs m.1 = true →
        ∃ k, m.1 ≤ k ∧ k < picksMade svc env ending cmds ∧
          EndsAt svc env redis ending cmds k (connAt svc env m.1 m.2) ∧
          ∀ m' ∈ multis env 0 none cmds, m.1 < m'.1 → m'.1 ≤ k →
            connAt svc env m'.1 m'.2 ≠ connAt svc env m.1 m.2 := by
  have hlen : (endedSends svc env timeout ending cmds).length = picksMade svc env ending cmds := by
    rw [endedSends_eq, sendAll_length, batchCalls_length]
  have hlt : ∀ m ∈ multis env 0 none cmds, m.1 < picksMade svc env ending cmds := by
    intro m hm
    have hx := @batchCalls_multi svc env ending cmds m.1 (multiCall m.2)
    have hget := hx.mpr ⟨m.2, hm, rfl⟩
    rw [← batchCalls_length]
    exact (List.getElem?_eq_some_iff.mp hget).1
  rw [leavesNoTransaction_iff_unnested, closed_unnested_iff, hlen]
  simp only [opens_iff, closes_iff, asksFor_iff]
  constructor
  · intro h m hm hperf
    obtain ⟨k, hle, hk, hend, hfree⟩ := h m.1 (hlt m hm) _ ⟨m.2, hm, rfl, hperf⟩
    exact ⟨k, hle, hk, hend, fun m' hm' hgt hle' heq => hfree m'.1 hgt hle' ⟨m'.2, hm', heq⟩⟩
  · rintro h i hi c ⟨slot, hm, rfl, hperf⟩
    obtain ⟨k, hle, hk, hend, hfree⟩ := h (i, slot) hm hperf
    exact ⟨k, hle, hk, hend, fun l hgt hle' ⟨slot', hm', heq⟩ => hfree (l, slot') hm' hgt hle' heq⟩

/-- Where no connection goes down, Redis must carry out no MULTI but that of the transaction
that comes about, and its EXEC, sent on the same connection. -/
theorem leavesNoTransaction_steady_iff {redis : RedisSide env} {ending : Ending}
    {cmds : List RedisCommand} (hsteady : ∀ n c, redis.drops n c = false) :
    LeavesNoTransaction redis ending (endedSends svc env timeout ending cmds) ↔
      ∀ m ∈ multis env 0 none cmds, redis.performs m.1 = true →
        ∃ o, opening env 0 none cmds = some o ∧ m = (o.pick, o.slot) ∧ ending.SendsExec ∧
          redis.performs (o.pick + 1 + o.commands.length) = true ∧
          connAt svc env (o.pick + 1 + o.commands.length) o.slot = connAt svc env o.pick o.slot := by
  have hends : ∀ k c, EndsAt svc env redis ending cmds k c ↔
      ∃ o, opening env 0 none cmds = some o ∧ ending.SendsExec ∧
        k = o.pick + 1 + o.commands.length ∧ connAt svc env k o.slot = c ∧
        redis.performs k = true := by
    intro k c
    simp [EndsAt, hsteady]
  rw [leavesNoTransaction_iff]
  simp only [hends]
  constructor
  · intro h m hm hperf
    obtain ⟨k, hle, hk, ⟨o, ho, hs, rfl, hc, hk'⟩, hfree⟩ := h m hm hperf
    obtain ⟨-, hacc, before, hmultis, hbefore⟩ := opening_multis ho
    have hlast : (o.pick, o.slot) ∈ multis env 0 none cmds := by simp [hmultis]
    -- the EXEC ends only one transaction, and the one that came about needs it
    obtain ⟨k', -, -, ⟨o', ho', -, rfl, hc', -⟩, -⟩ :=
      h _ hlast (redis.performs_of_accepts _ hacc)
    obtain rfl : o = o' := Option.some.inj (ho.symm.trans ho')
    have hm' : m ∈ before ∨ m = (o.pick, o.slot) := by simpa [hmultis] using hm
    rcases hm' with hm' | rfl
    · exact absurd (hc'.symm.trans hc) (hfree _ hlast (hbefore m hm') (by simp; omega))
    · exact ⟨o, ho, rfl, hs, hk', hc⟩
  · intro h m hm hperf
    obtain ⟨o, ho, rfl, hs, hk, hc⟩ := h m hm hperf
    obtain ⟨-, -, before, hmultis, hbefore⟩ := opening_multis ho
    have hpicks := queueCalls_opening ho
    refine ⟨_, by simp; omega, ?_, ⟨o, ho, hs, rfl, hc, hk⟩, fun m' hm' hgt _ => ?_⟩
    · have hend := Ending.picks_pos svc hs
      rw [queueCalls_length] at hpicks
      simp [picksMade, ho]
      omega
    · have hm'' : m' ∈ before ∨ m' = (o.pick, o.slot) := by simpa [hmultis] using hm'
      rcases hm'' with hm'' | rfl
      · exact absurd (hbefore m' hm'') (by simpa using hgt.le)
      · exact absurd hgt (lt_irrefl _)

end Positions

/-! A write batch on a pool of one client, on servers that stay up and whose connections do
too; what is not accepted is not carried out. -/

def lonePool (refused : List Nat) : PoolEnvironment :=
  { idlePool 1 Nat.one_pos with
    reply := fun n => if n ∈ refused then .error ⟨"ERR refused"⟩ else .ok .queued }

def steadySide (env : PoolEnvironment) : RedisSide env where
  performs n := env.accepts n
  drops _ _ := false
  performs_of_accepts _ h := h

def setFoo : RedisCommand := .set (utf8Bytes "foo") (.string "1") none none

/-- A discarded batch stays queued on the only connection, a timeout before EXEC leaves it
there as well, and after a refused first command MULTI is sent again into the open one. -/
theorem discard_leaves_transaction :
    (steadySide (lonePool [])).transactions
        (endedSends writeAtomicService (lonePool []) "3s" .discard [setFoo]) ⟨0, upperNode⟩ = some [1] ∧
    ¬ LeavesNoTransaction (steadySide (lonePool [])) .discard
      (endedSends writeAtomicService (lonePool []) "3s" .discard [setFoo]) ∧
    ¬ LeavesNoTransaction (steadySide (lonePool [])) (.execute (some .lock))
      (endedSends writeAtomicService (lonePool []) "3s" (.execute (some .lock)) [setFoo]) ∧
    ¬ LeavesNoTransaction (steadySide (lonePool [1, 2])) (.execute none)
      (endedSends writeAtomicService (lonePool [1, 2]) "3s" (.execute none) [setFoo, setFoo]) := by
  have hdiscard : (steadySide (lonePool [])).transactions
      (endedSends writeAtomicService (lonePool []) "3s" .discard [setFoo]) ⟨0, upperNode⟩ = some [1] := by
    decide +kernel
  have htimeout : (steadySide (lonePool [])).transactions
      (endedSends writeAtomicService (lonePool []) "3s" (.execute (some .lock)) [setFoo])
        ⟨0, upperNode⟩ = some [1] := by
    decide +kernel
  have hnested : (steadySide (lonePool [1, 2])).transactions
      ((endedSends writeAtomicService (lonePool [1, 2]) "3s" (.execute none) [setFoo, setFoo]).take 2)
        ⟨0, upperNode⟩ = some [] ∧
      (endedSends writeAtomicService (lonePool [1, 2]) "3s" (.execute none) [setFoo, setFoo])[2]? =
        some ⟨.multi, ⟨0, upperNode⟩, false⟩ := by
    decide +kernel
  refine ⟨hdiscard, fun hh => ?_, fun hh => ?_, fun hh => ?_⟩
  · rw [hh.closed] at hdiscard
    cases hdiscard
  · rw [hh.closed] at htimeout
    cases htimeout
  · have hnone := hh.unnested 2 _ hnested.2 rfl
    rw [hnested.1] at hnone
    cases hnone

end Redisson
