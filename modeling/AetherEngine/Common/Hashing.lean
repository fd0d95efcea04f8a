import Mathlib.Data.List.Basic

/-!
# The cluster's hash

The 64-bit FNV-1a hash every process computes the same way, and the placement
functions built on it.
-/

namespace AetherEngine.Common

def fnvOffsetBasis : UInt64 := 0xcbf29ce484222325

def fnvPrime : UInt64 := 0x00000100000001b3

/-- Exclusive-or each byte in, then multiply, modulo `2 ^ 64`. -/
def fnv1a64 (key : List UInt8) : UInt64 :=
  key.foldl (fun hash next => (hash ^^^ next.toUInt64) * fnvPrime)
    fnvOffsetBasis

-- The reference values of the hash's specification.
example : fnv1a64 [] = 0xcbf29ce484222325 := by
  decide

example : fnv1a64 [0x61] = 0xaf63dc4c8601ec8c := by
  decide

/-- The UTF-8 bytes of a text. -/
def textBytes (text : String) : List UInt8 :=
  text.toUTF8.data.toList

/-- A member's raft id is the hash of its node id. -/
def raftNodeId (nodeId : String) : UInt64 :=
  fnv1a64 (textBytes nodeId)

/-- The shard of an aircraft among `shardCount` shards, which is not zero. -/
def shardFor (icao24 : String) (shardCount : UInt32) : UInt32 :=
  (fnv1a64 (textBytes icao24) % shardCount.toUInt64).toUInt32

/-- The virtual shard of an aircraft; `vshardCount` is fixed for the cluster's
life. -/
def vshardFor (icao24 : String) (vshardCount : UInt32) : UInt32 :=
  shardFor icao24 vshardCount

theorem toNat_pos_of_ne_zero {number : UInt32} (nonzero : number ≠ 0) :
    0 < number.toNat := by
  apply Nat.pos_of_ne_zero
  intro zero
  exact nonzero (UInt32.toNat_inj.mp zero)

theorem toNat_vshardFor (icao24 : String) {v : UInt32} (counted : v ≠ 0) :
    (vshardFor icao24 v).toNat =
      (fnv1a64 (textBytes icao24)).toNat % v.toNat := by
  have small : (fnv1a64 (textBytes icao24)).toNat % v.toNat < 2 ^ 32 :=
    Nat.lt_trans (Nat.mod_lt _ (toNat_pos_of_ne_zero counted)) v.toNat_lt
  rw [vshardFor, shardFor, UInt64.toNat_toUInt32, UInt64.toNat_mod,
    UInt32.toNat_toUInt64, Nat.mod_eq_of_lt small]

end AetherEngine.Common
