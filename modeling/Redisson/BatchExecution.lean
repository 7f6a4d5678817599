import Redisson.RedisBasedBatch
import Redisson.TaskFates

/-! `execute_async` over the four execution modes, with everything that decides how it ends. -/

namespace Redisson

variable {sha1 : String → String}

/-- What one `execute_async` meets. Of the two queues the one of its execution mode is the
one in use. -/
structure Execution (sha1 : String → String) where
  env : Environment sha1
  fate : Group → TaskFate
  sched : Schedule
  queue : Queue
  pool : PoolEnvironment
  redisBased : RedisBased
  timeout : String
  timesOut : Option AwaitPoint

section ExecuteAsync

variable (svc : BatchService) (x : Execution sha1)

def executeAsync : Except Error BatchResult :=
  match svc.options.executionMode with
  | .redisReadAtomic | .redisWriteAtomic =>
    (executeRedisBasedQueue svc x.pool x.timeout x.timesOut x.redisBased).result
  | .inMemory | .inMemoryAtomic => (executeFates svc x.env x.fate x.queue x.sched).result

/-- What is sent to the sender of each queued command. -/
def Execution.sends : List (Nat × Reply) :=
  match svc.options.executionMode with
  | .redisReadAtomic | .redisWriteAtomic =>
    (executeRedisBasedQueue svc x.pool x.timeout x.timesOut x.redisBased).delivered
  | .inMemory | .inMemoryAtomic => (executeFates svc x.env x.fate x.queue x.sched).sends

def Execution.queued : List Nat :=
  match svc.options.executionMode with
  | .redisReadAtomic | .redisWriteAtomic => x.redisBased.entries
  | .inMemory | .inMemoryAtomic => x.queue.entries.map BatchCommandData.index

end ExecuteAsync

end Redisson
