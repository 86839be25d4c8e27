import Rustgo.ProtocolMessage

namespace Rustgo

open Protocol

/-- A socket address of the operating system. -/
inductive SocketAddr
  | v4 (octets : Vector UInt8 4) (port : UInt16)
  | v6 (octets : Vector UInt8 16) (port : UInt16) (flowinfo scopeId : UInt32)
  deriving DecidableEq

namespace SocketAddr

def ipv4MappedHeader : List UInt8 := [0, 0, 0, 0, 0, 0, 0, 0, 0, 0, 0xff, 0xff]

/-- The IPv4 address that an IPv6 address stands for. -/
def toIpv4Mapped (octets : Vector UInt8 16) : Option (Vector UInt8 4) :=
  if octets.toList.take 12 = ipv4MappedHeader then some #v[octets[12], octets[13], octets[14], octets[15]] else none

def canonicalSocketAddr : SocketAddr → SocketAddr
  | .v6 octets port flowinfo scopeId =>
      match toIpv4Mapped octets with
      | some ip => .v4 ip port
      | none => .v6 octets port flowinfo scopeId
  | .v4 octets port => .v4 octets port

def socketAddrFromWire : SocketAddress → SocketAddr
  | .v4 octets port => canonicalSocketAddr (.v4 octets port)
  | .v6 octets port => canonicalSocketAddr (.v6 octets port 0 0)

/-- An IPv6 address crosses the wire without its flow label and its scope. -/
def wireSocketAddr (address : SocketAddr) : SocketAddress :=
  match canonicalSocketAddr address with
  | .v4 octets port => .v4 octets port
  | .v6 octets port _ _ => .v6 octets port

/-- A flow has one identity, however often its addresses are made canonical. -/
theorem canonicalSocketAddr_idem (address : SocketAddr) :
    canonicalSocketAddr (canonicalSocketAddr address) = canonicalSocketAddr address := by
  cases address with
  | v4 octets port => rfl
  | v6 octets port flowinfo scopeId =>
      cases h : toIpv4Mapped octets with
      | some ip => simp [canonicalSocketAddr, h]
      | none => simp [canonicalSocketAddr, h]

/-- An IPv6 address that stands for an IPv4 one. -/
def Mapped : SocketAddr → Prop
  | .v4 _ _ => False
  | .v6 octets _ _ _ => toIpv4Mapped octets ≠ none

/-- An address that has no flow label and no scope. -/
def Unscoped : SocketAddr → Prop
  | .v4 _ _ => True
  | .v6 _ _ flowinfo scopeId => flowinfo = 0 ∧ scopeId = 0

instance : DecidablePred Mapped
  | .v4 _ _ => inferInstanceAs (Decidable False)
  | .v6 octets _ _ _ => inferInstanceAs (Decidable (toIpv4Mapped octets ≠ none))

instance : DecidablePred Unscoped
  | .v4 _ _ => inferInstanceAs (Decidable True)
  | .v6 _ _ flowinfo scopeId => inferInstanceAs (Decidable (flowinfo = 0 ∧ scopeId = 0))

theorem canonicalSocketAddr_eq_self {address : SocketAddr} : canonicalSocketAddr address = address ↔ ¬address.Mapped := by
  cases address with
  | v4 octets port => simp [canonicalSocketAddr, Mapped]
  | v6 octets port flowinfo scopeId =>
      cases h : toIpv4Mapped octets with
      | some ip => simp [canonicalSocketAddr, Mapped, h]
      | none => simp [canonicalSocketAddr, Mapped, h]

/-- The wire form says as much as the canonical address. -/
theorem wireSocketAddr_canonical (address : SocketAddr) :
    wireSocketAddr (canonicalSocketAddr address) = wireSocketAddr address := by
  rw [wireSocketAddr, wireSocketAddr, canonicalSocketAddr_idem]

/-- An address comes back from the wire as its canonical form, unless it had a
flow label or a scope to lose. -/
theorem socketAddrFromWire_wireSocketAddr {address : SocketAddr} :
    socketAddrFromWire (wireSocketAddr address) = canonicalSocketAddr address ↔ address.Mapped ∨ address.Unscoped := by
  cases address with
  | v4 octets port => simp [wireSocketAddr, socketAddrFromWire, canonicalSocketAddr, Unscoped]
  | v6 octets port flowinfo scopeId =>
      cases h : toIpv4Mapped octets with
      | some ip => simp [wireSocketAddr, socketAddrFromWire, canonicalSocketAddr, Mapped, h]
      | none => simp [wireSocketAddr, socketAddrFromWire, canonicalSocketAddr, Mapped, Unscoped, h, eq_comm]

/-- A second crossing of the wire changes nothing more. -/
theorem wireSocketAddr_socketAddrFromWire (address : SocketAddr) :
    socketAddrFromWire (wireSocketAddr (socketAddrFromWire (wireSocketAddr address))) =
      socketAddrFromWire (wireSocketAddr address) := by
  cases address with
  | v4 octets port => rfl
  | v6 octets port flowinfo scopeId =>
      cases h : toIpv4Mapped octets with
      | some ip => simp [wireSocketAddr, socketAddrFromWire, canonicalSocketAddr, h]
      | none => simp [wireSocketAddr, socketAddrFromWire, canonicalSocketAddr, h]

end SocketAddr

end Rustgo
