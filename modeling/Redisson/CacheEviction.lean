import Redisson.BatchBuffering

/-! The client side caches registered with `ServiceManager`, and which of them the writes
through `CommandAsyncService` tell to clear which key. Only `async0` tells them, and only of
the key that routes its command. -/

namespace Redisson

variable {sha1 : String → String}

/-- `str::from_utf8`. -/
def Key.fromUtf8 (key : Key) : Option String := String.fromUTF8? ⟨key.toArray⟩

def RedisCommand.keys : RedisCommand → List Key
  | get key | set key .. | expire key _ | pexpire key _ | ttl key | pttl key | persist key
  | hGet key _ | hSet key .. | hGetAll key | hDel key _ | hExists key _ | hLen key | hIncrBy key ..
  | sAdd key _ | sRem key _ | sMembers key | sIsMember key _ | sCard key | zAdd key .. | zRem key _
  | zScore key _ | zCard key | sort key | sortRo key => [key]
  | del keys | .exists keys | eval _ keys _ | evalSha _ keys _ | evalShaRo _ keys _ => keys
  | wait .. | waitAof .. => []

theorem RedisCommand.routingKey_eq_head (cmd : RedisCommand) : cmd.routingKey = cmd.keys.head? := by
  cases cmd <;> rfl

/-- `caching_instances`, by the address of each instance. -/
structure CachingInstances where
  addresses : List Nat
  nodup : addresses.Nodup

namespace CachingInstances

def empty : CachingInstances := ⟨[], by simp⟩

def addClientSideCaching (c : CachingInstances) (cache : Nat) : CachingInstances :=
  ⟨c.addresses.insert cache, c.nodup.insert⟩

def removeClientSideCaching (c : CachingInstances) (cache : Nat) : CachingInstances :=
  ⟨c.addresses.erase cache, c.nodup.erase cache⟩

def hasCachingInstances (c : CachingInstances) : Bool := !c.addresses.isEmpty

def evictClientSideCaching (c : CachingInstances) (name : String) : List (Nat × String) :=
  c.addresses.map (·, name)

end CachingInstances

/-- An operation that has returned, with the caches registered at that time and the
`clear_cache` calls made on the way. -/
structure Performed where
  op : Operation
  result : Reply
  instances : CachingInstances
  cleared : List (Nat × String)

structure Caching (sha1 : String → String) where
  world : World sha1
  instances : CachingInstances
  performed : List Performed

inductive CachingEvent
  | addClientSideCaching (cache : Nat)
  | removeClientSideCaching (cache : Nat)
  | operate (op : Operation)

section Operations

variable (svc : AsyncService sha1)

/-- `async0` of `CommandAsyncService`: its reply, and the caches it tells. -/
def AsyncService.async0 (instances : CachingInstances) (cmd : RedisCommand) (w : World sha1) :
    Reply × List (Nat × String) × World sha1 :=
  let isWrite := !cmd.isReadOnly
  let key := cmd.routingKey.bind Key.fromUtf8
  match svc.execute svc.buildOptions cmd w with
  | (.error e, w) => (.error e, [], w)
  | (.ok result, w) =>
    if isWrite && instances.hasCachingInstances then
      match key with
      | some name => (.ok result, instances.evictClientSideCaching name, w)
      | none => (.ok result, [], w)
    else (.ok result, [], w)

namespace Caching

def returned (s : Caching sha1) (op : Operation) (r : Reply) (cleared : List (Nat × String))
    (w : World sha1) : Caching sha1 :=
  { s with world := w, performed := s.performed ++ [⟨op, r, s.instances, cleared⟩] }

def unnoticed (s : Caching sha1) (op : Operation) (f : World sha1 → Reply × World sha1) : Caching sha1 :=
  let (r, w) := f s.world
  s.returned op r [] w

def perform (s : Caching sha1) (op : Operation) : Caching sha1 :=
  match op with
  | .async0 cmd | .writeAsync cmd =>
    let (r, cleared, w) := svc.async0 s.instances cmd s.world
    s.returned op r cleared w
  | .evalWriteAsync script keys args => s.unnoticed op (svc.evalWriteAsync script keys args)
  | .evalWriteNoRetryAsync script keys args => s.unnoticed op (svc.evalWriteNoRetryAsync script keys args)
  | .evalReadAsync script keys args => s.unnoticed op (svc.evalReadAsync script keys args)
  | .syncedEval mode retry script keys args => s.unnoticed op (svc.syncedEval mode retry script keys args)

def step (s : Caching sha1) : CachingEvent → Caching sha1
  | .addClientSideCaching cache => { s with instances := s.instances.addClientSideCaching cache }
  | .removeClientSideCaching cache => { s with instances := s.instances.removeClientSideCaching cache }
  | .operate op => s.perform svc op

def runAll (s : Caching sha1) (events : List CachingEvent) : Caching sha1 :=
  events.foldl (step svc) s

end Caching

end Operations

def Operation.isWrite : Operation → Bool
  | async0 cmd | writeAsync cmd => !cmd.isReadOnly
  | evalReadAsync .. => false
  | evalWriteAsync .. | evalWriteNoRetryAsync .. | syncedEval .. => true

namespace Performed

/-- Every registered cache has been told to clear every key that a successful write names. -/
def TellsAll (p : Performed) : Prop :=
  p.op.isWrite = true → (∃ v, p.result = .ok v) →
    ∀ cache ∈ p.instances.addresses, ∀ key ∈ p.op.command.keys, ∀ name,
      key.fromUtf8 = some name → (cache, name) ∈ p.cleared

/-- A successful write either has no cache to tell, or is no script and names no key but the
one that routes it. -/
def NamesOneKey (p : Performed) : Prop :=
  p.op.isWrite = true → (∃ v, p.result = .ok v) → p.instances.addresses ≠ [] →
    ∀ key ∈ p.op.command.keys, ∀ name, key.fromUtf8 = some name →
      p.op.isEval = false ∧ p.op.command.routingKey.bind Key.fromUtf8 = some name

/-- What the code does: a successful write tells the registered caches of its routing key,
and a script tells nobody. -/
def TellsRoutingKey (p : Performed) : Prop :=
  p.op.isWrite = true → (∃ v, p.result = .ok v) → ∀ cache name,
    (cache, name) ∈ p.cleared ↔ cache ∈ p.instances.addresses ∧ p.op.isEval = false ∧
      p.op.command.routingKey.bind Key.fromUtf8 = some name

theorem TellsRoutingKey.namesOneKey_iff {p : Performed} (h : p.TellsRoutingKey) :
    p.NamesOneKey ↔ p.TellsAll := by
  constructor
  · intro hone hw hok cache hc key hk name hname
    have hne : p.instances.addresses ≠ [] := List.ne_nil_of_mem hc
    exact (h hw hok cache name).mpr ⟨hc, hone hw hok hne key hk name hname⟩
  · intro hall hw hok hne key hk name hname
    obtain ⟨cache, hc⟩ := List.exists_mem_of_ne_nil _ hne
    exact ((h hw hok cache name).mp (hall hw hok cache hc key hk name hname)).2

end Performed

section Eviction

variable {svc : AsyncService sha1}

theorem CachingInstances.hasCachingInstances_iff {c : CachingInstances} :
    c.hasCachingInstances = true ↔ c.addresses ≠ [] := by
  simp [hasCachingInstances]

theorem AsyncService.async0_cleared {instances : CachingInstances} {cmd : RedisCommand} {w : World sha1}
    {v : Value} (h : (svc.async0 instances cmd w).1 = .ok v) (hw : cmd.isReadOnly = false) (cache : Nat)
    (name : String) : (cache, name) ∈ (svc.async0 instances cmd w).2.1 ↔
      cache ∈ instances.addresses ∧ cmd.routingKey.bind Key.fromUtf8 = some name := by
  cases hx : svc.execute svc.buildOptions cmd w with
  | mk r w' =>
    cases r with
    | error e => simp [async0, hx] at h
    | ok result =>
      by_cases hc : instances.addresses = []
      · have hnone : instances.hasCachingInstances = false := by
          simp [CachingInstances.hasCachingInstances, hc]
        simp [async0, hx, hnone, hc]
      · have hsome : instances.hasCachingInstances = true := CachingInstances.hasCachingInstances_iff.mpr hc
        cases hk : cmd.routingKey.bind Key.fromUtf8 with
        | none => simp [async0, hx, hsome, hw, hk]
        | some key => simp [async0, hx, hsome, hw, hk, CachingInstances.evictClientSideCaching]

namespace Caching

theorem mem_returned {s : Caching sha1} {op : Operation} {r : Reply} {cleared : List (Nat × String)}
    {w : World sha1} {p : Performed} : p ∈ (s.returned op r cleared w).performed ↔
      p ∈ s.performed ∨ p = ⟨op, r, s.instances, cleared⟩ := by
  simp [returned]

theorem unnoticed_tellsRoutingKey {s : Caching sha1} {op : Operation} {f : World sha1 → Reply × World sha1}
    (hop : op.isEval = true) (h : ∀ p ∈ s.performed, p.TellsRoutingKey) :
    ∀ p ∈ (s.unnoticed op f).performed, p.TellsRoutingKey := by
  intro p hp
  rcases mem_returned.mp hp with hp | rfl
  · exact h p hp
  · intro _ _ cache name
    simp [hop]

theorem async0_tellsRoutingKey {s : Caching sha1} {op : Operation} {cmd : RedisCommand}
    (hop : op = .async0 cmd ∨ op = .writeAsync cmd) (h : ∀ p ∈ s.performed, p.TellsRoutingKey) :
    ∀ p ∈ (s.perform svc op).performed, p.TellsRoutingKey := by
  intro p hp
  have hperform : s.perform svc op = s.returned op (svc.async0 s.instances cmd s.world).1
      (svc.async0 s.instances cmd s.world).2.1 (svc.async0 s.instances cmd s.world).2.2 := by
    rcases hop with rfl | rfl <;> rfl
  have heval : op.isEval = false := by rcases hop with rfl | rfl <;> rfl
  have hcommand : op.command = cmd := by rcases hop with rfl | rfl <;> rfl
  have hwrite : op.isWrite = !cmd.isReadOnly := by rcases hop with rfl | rfl <;> rfl
  rw [hperform] at hp
  rcases mem_returned.mp hp with hp | rfl
  · exact h p hp
  · rintro hw ⟨v, hv⟩ cache name
    have hreadOnly : cmd.isReadOnly = false := by simpa [hwrite] using hw
    simp [AsyncService.async0_cleared hv hreadOnly, heval, hcommand]

theorem step_tellsRoutingKey {s : Caching sha1} (h : ∀ p ∈ s.performed, p.TellsRoutingKey)
    (e : CachingEvent) : ∀ p ∈ (s.step svc e).performed, p.TellsRoutingKey := by
  cases e with
  | addClientSideCaching cache | removeClientSideCaching cache => exact h
  | operate op =>
    cases op with
    | async0 cmd => exact async0_tellsRoutingKey (.inl rfl) h
    | writeAsync cmd => exact async0_tellsRoutingKey (.inr rfl) h
    | evalWriteAsync | evalWriteNoRetryAsync | evalReadAsync | syncedEval =>
      exact unnoticed_tellsRoutingKey rfl h

theorem runAll_tellsRoutingKey {s : Caching sha1} (h : ∀ p ∈ s.performed, p.TellsRoutingKey)
    (events : List CachingEvent) : ∀ p ∈ (s.runAll svc events).performed, p.TellsRoutingKey := by
  induction events generalizing s with
  | nil => exact h
  | cons e events ih => exact ih (step_tellsRoutingKey h e)

def new (w : World sha1) : Caching sha1 := ⟨w, .empty, []⟩

/-- In a run every registered cache is told of every key written exactly when no successful
write with caches registered is a script or names a key besides the one that routes it. -/
theorem tellsAll_iff (svc : AsyncService sha1) (w : World sha1) (events : List CachingEvent) :
    (∀ p ∈ ((new w).runAll svc events).performed, p.TellsAll) ↔
      ∀ p ∈ ((new w).runAll svc events).performed, p.NamesOneKey := by
  have hrun := @runAll_tellsRoutingKey _ svc (new w) (by simp [new]) events
  exact forall₂_congr fun p hp => (hrun p hp).namesOneKey_iff.symm

end Caching

end Eviction

/-! One cache, told of a DEL of two keys and of a script. -/

def onlyPerformed (op : Operation) (cleared : List (Nat × String)) : Performed :=
  ⟨op, .ok (.integer 1), CachingInstances.empty.addClientSideCaching 0, cleared⟩

def deleteBoth : Operation := .async0 (.del [utf8Bytes "foo", utf8Bytes "bar"])

def evalFoo : Operation := .evalWriteAsync "return 1" [utf8Bytes "foo"] []

/-- The cache keeps the second key of the DEL, and the key of the script. -/
theorem second_key_kept :
    ((Caching.new Buffer.freshWorld).runAll Buffer.oneNodeAsync
        [.addClientSideCaching 0, .operate deleteBoth, .operate evalFoo]).performed =
      [onlyPerformed deleteBoth [(0, "foo")], onlyPerformed evalFoo []] ∧
    ¬ (onlyPerformed deleteBoth [(0, "foo")]).TellsAll ∧ ¬ (onlyPerformed evalFoo []).TellsAll := by
  have hfoo : Key.fromUtf8 (utf8Bytes "foo") = some "foo" := by decide
  have hbar : Key.fromUtf8 (utf8Bytes "bar") = some "bar" := by decide
  refine ⟨?_, fun h => ?_, fun h => ?_⟩
  · have hkey : (RedisCommand.del [utf8Bytes "foo", utf8Bytes "bar"]).routingKey.bind Key.fromUtf8 =
        some "foo" := hfoo
    have hdelete : (Buffer.oneNodeAsync.async0 (CachingInstances.empty.addClientSideCaching 0)
        (.del [utf8Bytes "foo", utf8Bytes "bar"]) Buffer.freshWorld).2.1 = [(0, "foo")] := by
      simp only [AsyncService.async0, hkey]
      rfl
    have hperformed : ((Caching.new Buffer.freshWorld).runAll Buffer.oneNodeAsync
        [.addClientSideCaching 0, .operate deleteBoth, .operate evalFoo]).performed =
      [onlyPerformed deleteBoth (Buffer.oneNodeAsync.async0 (CachingInstances.empty.addClientSideCaching 0)
        (.del [utf8Bytes "foo", utf8Bytes "bar"]) Buffer.freshWorld).2.1, onlyPerformed evalFoo []] := rfl
    rw [hperformed, hdelete]
  · have hmem := h rfl ⟨_, rfl⟩ 0 (by decide) (utf8Bytes "bar") (List.mem_of_getElem? (i := 1) rfl) "bar" hbar
    exact absurd hmem (by decide)
  · have hmem := h rfl ⟨_, rfl⟩ 0 (by decide) (utf8Bytes "foo") (List.mem_of_getElem? (i := 0) rfl) "foo" hfoo
    exact absurd hmem (by decide)

end Redisson
