import Redisson.FredTypes

/-! `BatchOptions`, its builder methods, and `BatchResult`. Durations are milliseconds. -/

namespace Redisson

inductive ExecutionMode
  | inMemory
  | inMemoryAtomic
  | redisReadAtomic
  | redisWriteAtomic
  deriving DecidableEq, Repr

inductive ReadMode
  | slave
  | master
  | masterSlave
  deriving DecidableEq, Repr

structure BatchOptions where
  executionMode : ExecutionMode
  responseTimeout : Option Nat
  retryAttempts : Int
  retryDelay : Option Nat
  syncSlaves : Int
  syncLocals : Int
  syncTimeout : Nat
  syncAof : Bool
  skipResult : Bool
  deriving DecidableEq, Repr

namespace BatchOptions

def defaults : BatchOptions where
  executionMode := .inMemory
  responseTimeout := none
  retryAttempts := -1
  retryDelay := none
  syncSlaves := 0
  syncLocals := 0
  syncTimeout := 0
  syncAof := false
  skipResult := false

def sync (o : BatchOptions) (slaves : Int) (timeout : Nat) : BatchOptions :=
  { o with syncSlaves := slaves, syncTimeout := timeout, syncAof := false }

def syncAOF (o : BatchOptions) (localNum slaves : Int) (timeout : Nat) : BatchOptions :=
  { o with syncLocals := localNum, syncSlaves := slaves, syncTimeout := timeout, syncAof := true }

def isRedisBasedQueue (o : BatchOptions) : Bool :=
  o.executionMode = .redisReadAtomic || o.executionMode = .redisWriteAtomic

def isAtomic (o : BatchOptions) : Bool := o.executionMode = .inMemoryAtomic

end BatchOptions

structure BatchResult where
  responses : List Value
  syncedSlaves : Int

end Redisson
