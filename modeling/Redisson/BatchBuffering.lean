import Redisson.BatchSystem
import Redisson.CommandAsyncService
import Redisson.NodeMap

/-! Calling a `CommandBatchService` through `CommandAsyncServiceLike`. It overrides
`async0`, `is_eval_cache_active` and `is_batch`; everything else it inherits. -/

namespace Redisson

inductive Operation
  | async0 (cmd : RedisCommand)
  | writeAsync (cmd : RedisCommand)
  | evalWriteAsync (script : String) (keys : List Key) (args : List Value)
  | evalWriteNoRetryAsync (script : String) (keys : List Key) (args : List Value)
  | evalReadAsync (script : String) (keys : List Key) (args : List Value)
  | syncedEval (mode : SyncMode) (retry : Bool) (script : String) (keys : List Key)
      (args : List Value)

namespace Operation

def command : Operation → RedisCommand
  | async0 cmd | writeAsync cmd => cmd
  | evalWriteAsync script keys args | evalWriteNoRetryAsync script keys args
  | evalReadAsync script keys args | syncedEval _ _ script keys args => .eval script keys args

def isEval : Operation → Bool
  | async0 _ | writeAsync _ => false
  | _ => true

end Operation

/-- The service that a batch is, as far as the inherited methods look at it. -/
def AsyncService.asBatch {sha1 : String → String} (svc : AsyncService sha1) : AsyncService sha1 :=
  { svc with isEvalCacheActive := false, isBatch := true }

/-- An in-memory batch that has not been executed, and the world around it. -/
structure Buffer (sha1 : String → String) where
  queue : List BatchCommandData
  nextIndex : Nat
  world : World sha1

namespace Buffer

variable {sha1 : String → String}

def new (w : World sha1) : Buffer sha1 := ⟨[], 0, w⟩

def async0 (b : Buffer sha1) (cmd : RedisCommand) : Buffer sha1 :=
  { b with queue := b.queue ++ [⟨cmd, b.nextIndex⟩], nextIndex := b.nextIndex + 1 }

def inWorld (b : Buffer sha1) (f : World sha1 → Reply × World sha1) : Buffer sha1 :=
  { b with world := (f b.world).2 }

def perform (svc : AsyncService sha1) (b : Buffer sha1) : Operation → Buffer sha1
  | .async0 cmd | .writeAsync cmd => b.async0 cmd
  | .evalWriteAsync script keys args => b.inWorld (svc.evalWriteAsync script keys args)
  | .evalWriteNoRetryAsync script keys args =>
    b.inWorld (svc.evalWriteNoRetryAsync script keys args)
  | .evalReadAsync script keys args => b.inWorld (svc.evalReadAsync script keys args)
  | .syncedEval mode retry script keys args =>
    b.inWorld (svc.syncedEval mode retry script keys args)

def performAll (svc : AsyncService sha1) (b : Buffer sha1) (ops : List Operation) : Buffer sha1 :=
  ops.foldl (perform svc) b

def discardAsync (b : Buffer sha1) : List (Nat × Reply) × Buffer sha1 :=
  (b.queue.map fun d => (d.index, .error BatchState.discarded), { b with queue := [] })

/-- Before `execute_async` nothing is sent, every operation has its command in the queue
under an index of its own, and after `discard_async` nothing has been sent either. -/
structure BuffersAll (svc : AsyncService sha1) (w : World sha1) (ops : List Operation) : Prop where
  unsent : (performAll svc.asBatch (new w) ops).world.sent = w.sent
  queued : (performAll svc.asBatch (new w) ops).queue =
    ops.zipIdx.map fun p => ⟨p.1.command, p.2⟩
  discarded : (discardAsync (performAll svc.asBatch (new w) ops)).2.world.sent = w.sent

section Inherited

variable (svc : AsyncService sha1)

theorem evalAsync_sent (h : svc.isEvalCacheActive = false) (readOnly noRetry : Bool)
    (script : String) (keys : List Key) (args : List Value) (w : World sha1) :
    (svc.evalAsync readOnly noRetry script keys args w).2.sent.length = w.sent.length + 1 := by
  simp [AsyncService.evalAsync, h, AsyncService.execute, AsyncService.send]

theorem syncedEval_sent (hc : svc.isEvalCacheActive = false) (hb : svc.isBatch = true)
    (mode : SyncMode) (retry : Bool) (script : String) (keys : List Key) (args : List Value)
    (w : World sha1) :
    (svc.syncedEval mode retry script keys args w).2.sent.length = w.sent.length + 1 := by
  cases retry <;>
    simp [AsyncService.syncedEval, hb, AsyncService.evalWriteFallback, AsyncService.evalWriteAsync,
      AsyncService.evalWriteNoRetryAsync, evalAsync_sent svc hc]

theorem perform_sent (b : Buffer sha1) (op : Operation) :
    (b.perform svc.asBatch op).world.sent.length =
      b.world.sent.length + if op.isEval then 1 else 0 := by
  have hc : svc.asBatch.isEvalCacheActive = false := rfl
  have hb : svc.asBatch.isBatch = true := rfl
  cases op with
  | async0 cmd | writeAsync cmd => rfl
  | evalWriteAsync script keys args => exact evalAsync_sent _ hc false false script keys args _
  | evalWriteNoRetryAsync script keys args => exact evalAsync_sent _ hc false true script keys args _
  | evalReadAsync script keys args => exact evalAsync_sent _ hc true false script keys args _
  | syncedEval mode retry script keys args =>
    exact syncedEval_sent _ hc hb mode retry script keys args _

theorem performAll_sent (b : Buffer sha1) (ops : List Operation) :
    (b.performAll svc.asBatch ops).world.sent.length =
      b.world.sent.length + ops.countP Operation.isEval := by
  induction ops generalizing b with
  | nil => rfl
  | cons op ops ih =>
    have hh := ih (b.perform svc.asBatch op)
    rw [perform_sent] at hh
    have hcount : (op :: ops).countP Operation.isEval =
        (if op.isEval then 1 else 0) + ops.countP Operation.isEval := by
      rw [List.countP_cons, Nat.add_comm]
    rw [hcount, ← Nat.add_assoc]
    exact hh

theorem performAll_buffered (b : Buffer sha1) {ops : List Operation}
    (h : ∀ op ∈ ops, op.isEval = false) :
    (b.performAll svc.asBatch ops).world = b.world ∧
      (b.performAll svc.asBatch ops).queue =
        b.queue ++ (ops.zipIdx b.nextIndex).map fun p => ⟨p.1.command, p.2⟩ := by
  induction ops generalizing b with
  | nil => simp [performAll]
  | cons op ops ih =>
    have hop : b.perform svc.asBatch op = b.async0 op.command := by
      have he := h op (by simp)
      cases op <;> simp_all [perform, Operation.command, Operation.isEval]
    have hh := ih (b.async0 op.command) fun op' ho => h op' (by simp [ho])
    have hcons : b.performAll svc.asBatch (op :: ops) =
        (b.async0 op.command).performAll svc.asBatch ops := by
      rw [← hop]
      rfl
    rw [hcons]
    refine ⟨hh.1, ?_⟩
    rw [hh.2]
    simp [async0, List.zipIdx_cons]

/-- A batch buffers all its operations exactly when none is of the EVAL family. -/
theorem buffersAll_iff (w : World sha1) (ops : List Operation) :
    BuffersAll svc w ops ↔ ∀ op ∈ ops, op.isEval = false := by
  constructor
  · intro h op ho
    have hh := performAll_sent svc (new w) ops
    rw [h.unsent] at hh
    have hzero : ops.countP Operation.isEval = 0 := by
      have hlen : w.sent.length = (new w).world.sent.length := rfl
      omega
    simpa using List.countP_eq_zero.mp hzero op ho
  · intro h
    obtain ⟨hw, hq⟩ := performAll_buffered svc (new w) h
    exact ⟨by rw [hw]; rfl, by simpa [new] using hq, by rw [discardAsync, hw]; rfl⟩

end Inherited

/-! One script on a batch of a service with one node. -/

def oneNodeAsync : AsyncService fun _ => "" where
  isEvalCacheActive := false
  isBatch := false
  isSingle := true
  retryAttempts := none
  responseTimeout := none
  keyslot _ := 12182
  getWriteEntry _ := none
  server _ := .ok (.integer 1)
  toText _ := .ok ""
  syncedBatch _ _ _ _ _ _ w := (.ok .null, w)

def freshWorld : World fun _ => "" := ⟨[], true, true, .empty, ∅, none⟩

/-- `eval_write_async` on a batch sends its EVAL before anything is executed or discarded,
and queues nothing. -/
theorem evalWriteAsync_not_buffered :
    (performAll oneNodeAsync.asBatch (new freshWorld)
      [.evalWriteAsync "return 1" [utf8Bytes "foo"] []]).world.sent =
        [⟨AsyncService.evalMethod "eval" "return 1" [utf8Bytes "foo"] [], ⟨none, none, none⟩⟩] ∧
    (performAll oneNodeAsync.asBatch (new freshWorld)
      [.evalWriteAsync "return 1" [utf8Bytes "foo"] []]).queue = [] ∧
    ¬ BuffersAll oneNodeAsync freshWorld [.evalWriteAsync "return 1" [utf8Bytes "foo"] []] := by
  refine ⟨rfl, rfl, fun hh => ?_⟩
  have hlen := congrArg List.length hh.unsent
  exact absurd hlen (by decide)

end Buffer

end Redisson
