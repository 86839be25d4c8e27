import Rustgo.PathState
import Rustgo.Tables

namespace Rustgo.Path

open Tables

def PathKind.debugName : PathKind → String
  | .quicV6 => "QuicV6"
  | .quicV4 => "QuicV4"
  | .nativeTcp => "NativeTcp"
  | .relay => "Relay"

inductive PathKindStatus
  | direct (address : String)
  | relay
  deriving DecidableEq

def PathKind.status (kind : PathKind) : PathKindStatus := if kind.isDirect then .direct kind.debugName else .relay

structure PathStatus where
  kind : PathKindStatus
  updatedUnixMillis : UInt64
  deriving DecidableEq

/-- The current path selections, keyed by export name. -/
structure PathStatusStore where
  entries : Table String PathStatus
  version : UInt64

namespace PathStatusStore

def new : PathStatusStore := ⟨∅, 0⟩

variable (store : PathStatusStore) (exportName : String)

def record (status : PathStatus) : PathStatusStore := ⟨store.entries.insert exportName status, store.version + 1⟩

def remove : PathStatusStore :=
  if exportName ∈ store.entries then ⟨store.entries.erase exportName, store.version + 1⟩ else store

variable {store exportName} {other : String}

@[simp] theorem mem_record {status : PathStatus} :
    other ∈ (store.record exportName status).entries ↔ other = exportName ∨ other ∈ store.entries := Finmap.mem_insert

@[simp] theorem mem_remove : other ∈ (store.remove exportName).entries ↔ other ≠ exportName ∧ other ∈ store.entries := by
  rw [remove]
  split
  · exact Finmap.mem_erase
  · next habsent => exact ⟨fun h => ⟨fun heq => habsent (heq ▸ h), h⟩, And.right⟩

end PathStatusStore

end Rustgo.Path
