import Rustgo.Bytes
import Mathlib.Order.Lattice
import Mathlib.Order.Basic

namespace Rustgo

inductive IpAddr
  | v4 (octets : Vector UInt8 4)
  | v6 (octets : Vector UInt8 16)
  deriving DecidableEq

inductive PeerBucket
  | v4 (octets : Vector UInt8 4)
  | v6Prefix64 (octets : Vector UInt8 8)
  deriving DecidableEq

namespace PeerBucket

/-- The derived order: the variants in turn, then the bytes lexicographically,
which for a fixed width is the order of the big-endian numbers. -/
def rank : PeerBucket → Nat
  | .v4 octets => ofBe octets.toList
  | .v6Prefix64 octets => 256 ^ 4 + ofBe octets.toList

theorem rank_injective : Function.Injective rank := by
  intro a b h
  cases a with
  | v4 xs =>
      have hx := ofBe_lt xs.toList
      rw [Vector.length_toList] at hx
      cases b with
      | v4 ys => exact congrArg v4 (Vector.toList_inj.mp (ofBe_injective (by simp) h))
      | v6Prefix64 ys => simp only [rank] at h; omega
  | v6Prefix64 xs =>
      cases b with
      | v4 ys =>
          have hy := ofBe_lt ys.toList
          rw [Vector.length_toList] at hy
          simp only [rank] at h
          omega
      | v6Prefix64 ys =>
          have he : ofBe xs.toList = ofBe ys.toList := Nat.add_left_cancel h
          exact congrArg v6Prefix64 (Vector.toList_inj.mp (ofBe_injective (by simp) he))

instance : LinearOrder PeerBucket := LinearOrder.lift' rank rank_injective

/-- An IPv4-mapped address counts as its IPv4 address, and an IPv6 address as
its /64 prefix. -/
def ofIpAddr : IpAddr → PeerBucket
  | .v4 octets => .v4 octets
  | .v6 octets =>
      if octets.toList.take 12 = List.replicate 10 0 ++ [0xff, 0xff] then .v4 (octets.drop 12)
      else .v6Prefix64 (octets.take 8)

def attemptShardsPerFamily : Nat := 8
def attemptShards : Nat := attemptShardsPerFamily * 2

def fnv (bytes : Bytes) : UInt64 :=
  bytes.foldl (fun hash byte => (hash ^^^ byte.toUInt64) * 0x00000100000001b3) 0xcbf29ce484222325

def attemptShard : PeerBucket → Fin attemptShards
  | .v4 octets => ⟨(fnv octets.toList).toNat % attemptShardsPerFamily, by
      have h := Nat.mod_lt (fnv octets.toList).toNat (show 0 < attemptShardsPerFamily by decide)
      simp only [attemptShards]
      omega⟩
  | .v6Prefix64 octets => ⟨attemptShardsPerFamily + (fnv octets.toList).toNat % attemptShardsPerFamily, by
      have h := Nat.mod_lt (fnv octets.toList).toNat (show 0 < attemptShardsPerFamily by decide)
      simp only [attemptShards]
      omega⟩

end PeerBucket

end Rustgo
