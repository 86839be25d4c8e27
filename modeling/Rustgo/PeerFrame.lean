import Rustgo.ProtocolMessage

namespace Rustgo

/-- Flag bytes that pass `TryFrom<u8>`: only supported bits are set. -/
structure PeerRelayFlags where
  bits : UInt8
  supported : bits &&& ~~~7 = 0
  deriving DecidableEq

namespace PeerRelayFlags

def RELIABLE : PeerRelayFlags := ⟨1, rfl⟩
def DATAGRAM : PeerRelayFlags := ⟨2, rfl⟩
def FIN : PeerRelayFlags := ⟨4, rfl⟩

def tryFrom (value : UInt8) : Option PeerRelayFlags :=
  if h : value &&& ~~~7 = 0 then some ⟨value, h⟩ else none

theorem or_supported {a b : UInt8} (ha : a &&& ~~~7 = 0) (hb : b &&& ~~~7 = 0) :
    (a ||| b) &&& ~~~7 = 0 := by
  apply UInt8.toBitVec_inj.mp
  have ha' := congrArg UInt8.toBitVec ha
  have hb' := congrArg UInt8.toBitVec hb
  rw [UInt8.toBitVec_and] at ha' hb' ⊢
  rw [UInt8.toBitVec_or, BitVec.and_or_distrib_right, ha', hb']
  rfl

def bitor (a b : PeerRelayFlags) : PeerRelayFlags :=
  ⟨a.bits ||| b.bits, or_supported a.supported b.supported⟩

end PeerRelayFlags

structure SessionId where
  bytes : Vector UInt8 32
  deriving DecidableEq

def maxPeerRelayCiphertextBytes : Nat := 65536

inductive WireError
  | encode
  | decode
  | envelopeTooLarge (bound : BoundExceeded)
  | relayFrameTooLarge (bound : BoundExceeded)
  | ciphertextTooLarge
  | zeroRelayChannel
  | unsupportedRelayFlags (value : UInt8)
  | invalidTransportBindings
  | messageIdMismatch (expected actual : Protocol.MessageId)
  | notRendezvousMessage (id : Protocol.MessageId)
  | notPeerRelayFrame (id : Protocol.MessageId)
  deriving DecidableEq

structure PeerRelayFrame where
  sessionId : SessionId
  channelId : UInt64
  sequence : UInt64
  flags : PeerRelayFlags
  ciphertextLen : UInt32
  ciphertext : BoundedBytes maxPeerRelayCiphertextBytes
  deriving DecidableEq

def PeerRelayFrame.new (sessionId : SessionId) (channelId sequence : UInt64) (flags : PeerRelayFlags)
    (ciphertext : Bytes) : Except WireError PeerRelayFrame :=
  if channelId = 0 then .error .zeroRelayChannel
  else if 2 ^ 32 ≤ ciphertext.length then .error .ciphertextTooLarge
  else match BoundedBytes.tryFrom maxPeerRelayCiphertextBytes ciphertext with
    | .error _ => .error .ciphertextTooLarge
    | .ok bounded =>
        .ok ⟨sessionId, channelId, sequence, flags, UInt32.ofNat ciphertext.length, bounded⟩

theorem PeerRelayFrame.new_eq_ok {sessionId : SessionId} {channelId sequence : UInt64}
    {flags : PeerRelayFlags} {ciphertext : Bytes} (hc : channelId ≠ 0)
    (hl : ciphertext.length ≤ maxPeerRelayCiphertextBytes) :
    PeerRelayFrame.new sessionId channelId sequence flags ciphertext =
      .ok ⟨sessionId, channelId, sequence, flags, UInt32.ofNat ciphertext.length, ⟨ciphertext, hl⟩⟩ := by
  have hl' : ¬2 ^ 32 ≤ ciphertext.length := by
    simp only [maxPeerRelayCiphertextBytes] at hl
    omega
  simp only [PeerRelayFrame.new, hc, hl', if_false, BoundedBytes.tryFrom_of_le hl]

end Rustgo
