import Rustgo.Calls
import Rustgo.MinHeap
import Rustgo.Registry
import Mathlib.Data.Prod.Lex

namespace Rustgo.Coordinator

open Checks Protocol Registry Rendezvous Tables

def expiryMaintenanceBatch : Nat := 1024
def peerAeadTagBytes : Nat := 16

/-- Instants and durations count nanoseconds. -/
def second : Nat := 1000000000
def millisecond : Nat := 1000000
def observabilityFlushInterval : Nat := 250 * millisecond

/-- What the clocks show during a call. -/
structure Moment where
  unixSecs : UInt64
  unixMillis : UInt64
  instant : Nat
  deriving DecidableEq

inductive RendezvousErrorCode
  | unknownPeer
  | peerDisabled
  | peerOffline
  | selfTarget
  | capacityReached
  | duplicateSession
  | identityMismatch
  | expired
  | unknownSession
  | notParticipant
  | invalidState
  | deliveryUnavailable
  | peerDisconnected
  | unsupportedPeerVersion
  | invalidExpiry
  deriving DecidableEq

namespace RendezvousErrorCode

def asU16 : RendezvousErrorCode → UInt16
  | unknownPeer => 1
  | peerDisabled => 2
  | peerOffline => 3
  | selfTarget => 4
  | capacityReached => 5
  | duplicateSession => 6
  | identityMismatch => 7
  | expired => 8
  | unknownSession => 9
  | notParticipant => 10
  | invalidState => 11
  | deliveryUnavailable => 12
  | peerDisconnected => 13
  | unsupportedPeerVersion => 14
  | invalidExpiry => 15

def detail : RendezvousErrorCode → String
  | unknownPeer => "unknown peer"
  | peerDisabled => "peer is disabled"
  | peerOffline => "peer is offline"
  | selfTarget => "cannot rendezvous with self"
  | capacityReached => "rendezvous capacity reached"
  | duplicateSession => "duplicate rendezvous session"
  | identityMismatch => "authenticated identity mismatch"
  | expired => "rendezvous session expired"
  | unknownSession => "unknown rendezvous session"
  | notParticipant => "authenticated device is not a session participant"
  | invalidState => "invalid rendezvous state"
  | deliveryUnavailable => "rendezvous delivery unavailable"
  | peerDisconnected => "peer control session disconnected"
  | unsupportedPeerVersion => "peer does not support rendezvous"
  | invalidExpiry => "rendezvous expiry is outside the server horizon"

theorem detail_bounded (code : RendezvousErrorCode) : code.detail.utf8ByteSize ≤ maxErrorDetailBytes := by
  cases code <;> decide

end RendezvousErrorCode

structure RendezvousSessionMetadata where
  sessionId : SessionId
  consumer : DeviceName
  provider : DeviceName
  exportName : BoundedString maxExportNameBytes
  protocol : Option TunnelProtocol
  expiresUnixSecs : UInt64
  deriving DecidableEq

structure RendezvousLimits where
  maxSessions : Nat
  maxSessionsPerDevice : Nat
  sessionTtlSecs : UInt64

structure DirectoryEntry where
  publicKey : String
  enabled : Bool
  deriving DecidableEq

/-- The fixed part of the coordinator. `sha256` is the digest of the `sha2` crate. -/
structure RendezvousCoordinator where
  directory : Table DeviceName DirectoryEntry
  limits : RendezvousLimits
  sha256 : Bytes → Vector UInt8 32

structure SessionOwner where
  name : DeviceName
  fingerprint : String
  controlSessionId : Bytes
  observabilityIdentity : AuthenticatedClientIdentity
  deriving DecidableEq

namespace SessionOwner

def fromControl (control : ControlSessionGuard) : SessionOwner :=
  ⟨control.identity.name, control.identity.fingerprint, control.identity.sessionId, control.observabilityIdentity⟩

def fromActive (control : ActiveControlSession) : SessionOwner :=
  ⟨control.identity.name, control.identity.fingerprint, control.identity.sessionId, control.observabilityIdentity⟩

def Matches (owner : SessionOwner) (identity : AuthenticatedClient) : Prop :=
  owner.name = identity.name ∧ owner.fingerprint = identity.fingerprint ∧
    owner.controlSessionId = identity.sessionId

instance (owner : SessionOwner) (identity : AuthenticatedClient) : Decidable (owner.Matches identity) :=
  inferInstanceAs (Decidable (_ ∧ _))

end SessionOwner

structure RelayAdmission where
  requestedBy : UInt8
  datagram : Option Bool
  windowStarted : Nat
  framesInWindow : Nat
  bytesInWindow : Nat
  deriving DecidableEq

namespace RelayAdmission

def maxFramesPerSecond : Nat := 256
def maxBytesPerSecond : Nat := 4 * 1024 * 1024

def new (now : Moment) : RelayAdmission := ⟨0, none, now.instant, 0, 0⟩

def Authorized (relay : RelayAdmission) : Prop := relay.requestedBy = 3

instance (relay : RelayAdmission) : Decidable relay.Authorized := inferInstanceAs (Decidable (_ = _))

/-- Opens a new window when the last one is over. -/
def roll (relay : RelayAdmission) (now : Moment) : RelayAdmission :=
  if second ≤ now.instant - relay.windowStarted then
    { relay with windowStarted := now.instant, framesInWindow := 0, bytesInWindow := 0 }
  else relay

/-- The window is rolled even when the frame is refused. -/
def admitFrame (relay : RelayAdmission) (now : Moment) (bytes : Nat) : Bool × RelayAdmission :=
  let relay := relay.roll now
  if 2 ^ 64 ≤ relay.bytesInWindow + bytes then (false, relay)
  else if maxFramesPerSecond ≤ relay.framesInWindow ∨ maxBytesPerSecond < relay.bytesInWindow + bytes then
    (false, relay)
  else (true, { relay with
    framesInWindow := relay.framesInWindow + 1
    bytesInWindow := relay.bytesInWindow + bytes })

end RelayAdmission

structure StoredSession where
  metadata : RendezvousSessionMetadata
  consumer : SessionOwner
  provider : SessionOwner
  state : RendezvousState
  relay : RelayAdmission
  candidateGenerationAnnouncedBy : UInt8
  candidateDigests : Option (Vector UInt8 32) × Option (Vector UInt8 32)
  generationStarted : Nat
  observedPath : Option SessionPath
  fallbackConsumerInternalFramesRemaining : Nat
  fallbackProviderInternalFramesRemaining : Nat
  pendingPreselectionRelayTraffic : TrafficCounters
  pendingRelayTraffic : TrafficCounters
  lastObservabilityFlush : Nat
  deriving DecidableEq

structure SessionTombstone where
  consumer : SessionOwner
  provider : SessionOwner
  expiresUnixSecs : UInt64
  deriving DecidableEq

def SessionTombstone.fromSession (session : StoredSession) : SessionTombstone :=
  ⟨session.consumer, session.provider, session.metadata.expiresUnixSecs⟩

inductive SessionRecord
  | active (session : StoredSession)
  | tombstone (tombstone : SessionTombstone)
  deriving DecidableEq

namespace SessionRecord

def active? : SessionRecord → Option StoredSession
  | active session => some session
  | tombstone _ => none

def expiresUnixSecs : SessionRecord → UInt64
  | active session => session.metadata.expiresUnixSecs
  | tombstone t => t.expiresUnixSecs

def devices : SessionRecord → DeviceName × DeviceName
  | active session => (session.consumer.name, session.provider.name)
  | tombstone t => (t.consumer.name, t.provider.name)

end SessionRecord

structure ExpiryEntry where
  expiresUnixSecs : UInt64
  sessionId : SessionId
  deriving DecidableEq

namespace ExpiryEntry

/-- Byte strings of one length compare as the numbers they spell. -/
def key (entry : ExpiryEntry) : Nat ×ₗ Nat :=
  toLex (entry.expiresUnixSecs.toNat, ofBe entry.sessionId.bytes.toList)

theorem key_injective : Function.Injective key := by
  rintro ⟨expires, ⟨bytes⟩⟩ ⟨expires', ⟨bytes'⟩⟩ h
  obtain ⟨he, hb⟩ := Prod.mk.injEq _ _ _ _ ▸ toLex.injective h
  have hlist : bytes.toList = bytes'.toList := ofBe_injective (by simp) hb
  have hbytes : bytes = bytes' := Vector.toList_inj.mp hlist
  have hexpires : expires = expires' := UInt64.toNat_inj.mp he
  rw [hexpires, hbytes]

instance : LinearOrder ExpiryEntry := LinearOrder.lift' key key_injective

theorem expires_le {a b : ExpiryEntry} (h : a ≤ b) : a.expiresUnixSecs ≤ b.expiresUnixSecs := by
  have hkey : a.key ≤ b.key := h
  rcases Prod.Lex.le_iff.mp hkey with hlt | ⟨heq, _⟩
  · exact UInt64.le_iff_toNat_le.mpr hlt.le
  · exact UInt64.le_iff_toNat_le.mpr heq.le

theorem lt_of_id {expires : UInt64} {a b : SessionId} (h : ofBe a.bytes.toList < ofBe b.bytes.toList) :
    (⟨expires, a⟩ : ExpiryEntry) < ⟨expires, b⟩ :=
  have hkey : key ⟨expires, a⟩ < key ⟨expires, b⟩ := Prod.Lex.lt_iff.mpr (.inr ⟨rfl, h⟩)
  hkey

end ExpiryEntry

structure CoordinatorState where
  sessions : Table SessionId SessionRecord
  deviceCounts : Table DeviceName Nat
  expiry : MinHeap ExpiryEntry

def CoordinatorState.default : CoordinatorState := ⟨∅, ∅, .empty⟩

end Rustgo.Coordinator
