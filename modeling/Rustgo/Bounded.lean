import Rustgo.Bytes

namespace Rustgo

structure BoundExceeded where
  actual : Nat
  max : Nat
  deriving DecidableEq, Repr

structure BoundedBytes (max : Nat) where
  bytes : Bytes
  bounded : bytes.length ≤ max
  deriving DecidableEq

/-- The length of a string is counted in UTF-8 bytes. -/
structure BoundedString (max : Nat) where
  str : String
  bounded : str.utf8ByteSize ≤ max
  deriving DecidableEq

structure BoundedVec (α : Type) (max : Nat) where
  items : List α
  bounded : items.length ≤ max
  deriving DecidableEq

def BoundedBytes.tryFrom (max : Nat) (value : Bytes) : Except BoundExceeded (BoundedBytes max) :=
  if h : value.length ≤ max then .ok ⟨value, h⟩ else .error ⟨value.length, max⟩

def BoundedString.tryFrom (max : Nat) (value : String) : Except BoundExceeded (BoundedString max) :=
  if h : value.utf8ByteSize ≤ max then .ok ⟨value, h⟩ else .error ⟨value.utf8ByteSize, max⟩

def BoundedVec.tryFrom {α : Type} (max : Nat) (value : List α) : Except BoundExceeded (BoundedVec α max) :=
  if h : value.length ≤ max then .ok ⟨value, h⟩ else .error ⟨value.length, max⟩

theorem BoundedBytes.tryFrom_of_le {max : Nat} {value : Bytes} (h : value.length ≤ max) :
    BoundedBytes.tryFrom max value = .ok ⟨value, h⟩ := by
  simp [BoundedBytes.tryFrom, h]

theorem BoundedString.str_inj {max : Nat} {a b : BoundedString max} (h : a.str = b.str) : a = b := by
  cases a
  cases b
  congr

theorem BoundedString.tryFrom_eq_ok {max : Nat} {value : String} {bounded : BoundedString max} :
    BoundedString.tryFrom max value = .ok bounded ↔ bounded.str = value := by
  obtain ⟨str, hstr⟩ := bounded
  rw [BoundedString.tryFrom]
  split
  · simp [eq_comm]
  · next hover =>
    constructor
    · intro h
      exact nomatch h
    · rintro rfl
      exact absurd hstr hover

end Rustgo
