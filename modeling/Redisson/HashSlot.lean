import Redisson.FredTypes

/-! The hash slots of Redis Cluster. The model keeps `redis_keyslot` of `fred` as a
parameter; at concrete inputs the CRC16 of the cluster specification stands in for it. -/

namespace Redisson

def crc16Shift (crc : UInt16) : Nat → UInt16
  | 0 => crc
  | n + 1 => crc16Shift (if crc &&& 0x8000 ≠ 0 then (crc <<< 1) ^^^ 0x1021 else crc <<< 1) n

def crc16 (bs : Bytes) : UInt16 :=
  bs.foldl (fun crc b => crc16Shift (crc ^^^ (b.toUInt16 <<< (8 : UInt16))) 8) 0

/-- A non-empty part between the first `{` and the next `}` stands for the key. -/
def hashTag (key : Key) : Key :=
  let rest := (key.dropWhile (· ≠ 0x7b)).drop 1
  let tag := rest.takeWhile (· ≠ 0x7d)
  if tag = [] ∨ tag = rest then key else tag

def clusterSlot (key : Key) : Slot := crc16 (hashTag key) &&& 0x3fff

theorem clusterSlot_lt (key : Key) : clusterSlot key < 16384 := by
  have hh : (clusterSlot key).toNat ≤ 0x3fff := by
    simpa [clusterSlot, UInt16.toNat_and] using Nat.and_le_right
  have hlt : (clusterSlot key).toNat < 16384 := by omega
  exact UInt16.lt_iff_toNat_lt.mpr hlt

example : clusterSlot (utf8Bytes "foo") = 12182 ∧ clusterSlot (utf8Bytes "{foo}.lock") = 12182 := by
  decide +kernel

def lowerNode : Server := ⟨"127.0.0.1", 7000⟩

def upperNode : Server := ⟨"127.0.0.1", 7001⟩

def halvedOwner (slot : Slot) : Server := if slot < 8192 then lowerNode else upperNode

end Redisson
