import Mathlib.Data.List.Infix

/-! The part of the `fred` client that the code builds on: values, errors, nodes,
and the calls that are put on a connection. -/

namespace Redisson

abbrev Bytes := List UInt8

abbrev Key := Bytes

abbrev Slot := UInt16

def utf8Bytes (s : String) : Bytes := s.toList.flatMap String.utf8EncodeChar

structure Error where
  message : String
  deriving DecidableEq, Repr

def Error.contains (e : Error) (text : String) : Bool :=
  decide (text.toList <:+: e.message.toList)

/-- `fred::types::Value`; a double is kept as its bit pattern. -/
inductive Value
  | null
  | boolean (b : Bool)
  | integer (n : Int)
  | double (bits : UInt64)
  | string (s : String)
  | bytes (bs : Bytes)
  | queued
  | map (entries : List (Value × Value))
  | array (items : List Value)
  deriving Inhabited

abbrev Reply := Except Error Value

structure Server where
  host : String
  port : UInt16
  deriving DecidableEq, Repr

inductive ClusterHash
  | firstKey
  | custom (slot : Slot)
  deriving DecidableEq, Repr

inductive Expiration
  | ex (seconds : Int)
  | px (milliseconds : Int)
  | exat (seconds : Int)
  | pxat (milliseconds : Int)
  | keepttl
  deriving DecidableEq, Repr

inductive SetOptions
  | nx
  | xx
  deriving DecidableEq, Repr

inductive Arg
  | key (k : Key)
  | keys (ks : List Key)
  | value (v : Value)
  | values (vs : List Value)
  | integer (n : Int)
  | field (k : Key)
  | fieldValue (k : Key) (v : Value)
  | scored (score : UInt64) (member : Value)
  | expiry (e : Option Expiration)
  | options (o : Option SetOptions)
  | flag (b : Bool)
  | absent

/-- A call on a client or pipeline: a typed interface method, or `ClientLike::custom`. -/
inductive Call
  | method (name : String) (args : List Arg)
  | custom (name : String) (hash : ClusterHash) (args : List Value)

def Value.hashedBytes : Value → Option Bytes
  | .string s => some (utf8Bytes s)
  | .bytes bs => some bs
  | _ => none

def Arg.hashedKey : Arg → Option Key
  | .key k => some k
  | .keys ks => ks.head?
  | _ => none

/-- The slot by which `fred` routes a call, `none` when it may pick any node. Typed
methods hash their key, `FirstKey` hashes the first string or bytes argument. -/
def Call.slot (keyslot : Key → Slot) : Call → Option Slot
  | .method _ args => (args.findSome? Arg.hashedKey).map keyslot
  | .custom _ .firstKey args => (args.findSome? Value.hashedBytes).map keyslot
  | .custom _ (.custom s) _ => some s

end Redisson
