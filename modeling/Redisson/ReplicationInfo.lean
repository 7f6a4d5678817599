import Mathlib.Algebra.Group.Int.Defs
import Mathlib.Data.List.Basic

/-! Reading `connected_slaves` and `aof_enabled` out of the text of INFO, as
`parse_info_str` and `parse_info_i64` do. -/

namespace Redisson

structure ReplicationInfo where
  connectedSlaves : Int
  aofEnabled : Bool
  deriving DecidableEq, Repr

namespace ReplicationInfo

def stripCr (line : List Char) : List Char :=
  if line.getLast? = some '\r' then line.dropLast else line

/-- `str::lines`; `line` is the part of the current line already read. -/
def lines : List Char → List Char → List (List Char)
  | [], line => if line = [] then [] else [line]
  | c :: cs, line => if c = '\n' then stripCr line :: lines cs [] else lines cs (line ++ [c])

def stripPrefix : List Char → List Char → Option (List Char)
  | [], cs => some cs
  | _ :: _, [] => none
  | p :: ps, c :: cs => if p = c then stripPrefix ps cs else none

def isWhitespace (c : Char) : Bool :=
  (0x9 ≤ c.val && c.val ≤ 0xd) || c.val = 0x20 || c.val = 0x85 || c.val = 0xa0 || c.val = 0x1680 ||
  (0x2000 ≤ c.val && c.val ≤ 0x200a) || c.val = 0x2028 || c.val = 0x2029 || c.val = 0x202f ||
  c.val = 0x205f || c.val = 0x3000

def trim (cs : List Char) : List Char :=
  ((cs.dropWhile isWhitespace).reverse.dropWhile isWhitespace).reverse

def parseStr (info key : String) : Option (List Char) :=
  (lines info.toList []).findSome? fun line =>
    (stripPrefix key.toList line).bind fun rest => (stripPrefix [':'] rest).map trim

def parseDigits : List Char → Nat → Option Nat
  | [], n => some n
  | c :: cs, n => if c.isDigit then parseDigits cs (10 * n + (c.toNat - '0'.toNat)) else none

def parseI64 (cs : List Char) : Option Int :=
  let n : Option Int :=
    match cs with
    | [] | ['+'] | ['-'] => none
    | '-' :: ds => (parseDigits ds 0).map fun n => -(n : Int)
    | '+' :: ds => (parseDigits ds 0).map fun n => (n : Int)
    | ds => (parseDigits ds 0).map fun n => (n : Int)
  n.filter fun n => -2 ^ 63 ≤ n && n < 2 ^ 63

def parseInt (info key : String) : Int := ((parseStr info key).bind parseI64).getD 0

def parse (info : String) : ReplicationInfo where
  connectedSlaves := parseInt info "connected_slaves"
  aofEnabled := parseStr info "aof_enabled" = some ['1']

example : parse "# Replication\r\nrole:master\r\nconnected_slaves:2\r\n\r\naof_enabled:1\r\n" = ⟨2, true⟩ := by
  decide

end ReplicationInfo

end Redisson
