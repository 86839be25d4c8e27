import Rustgo.OrderedChannel
import Rustgo.Sha256
import Rustgo.SigningTranscripts

namespace Rustgo.PeerCipher

open Postcard.Format (utf8)
open Checks AeadTable OrderedChannel

variable {Key Secret : Type}

/-- The key agreement crate: both sides reach the same shared secret. -/
structure X25519 (Secret : Type) where
  publicKey : Secret → Vector UInt8 32
  diffieHellman : Secret → Vector UInt8 32 → Vector UInt8 32
  wasContributory : Vector UInt8 32 → Bool
  agree : ∀ a b, diffieHellman a (publicKey b) = diffieHellman b (publicKey a)

/-- The key derivation crate, which never refuses to expand to one key. -/
structure Hkdf (Key : Type) where
  extract : Vector UInt8 32 → Vector UInt8 32 → Key
  expand : Key → Bytes → Key

/-- Keys expanded under distinct labels and then under distinct infos are independent. -/
def Hkdf.Independent (hkdf : Hkdf Key) (prk : Key) (labels infos : Set Bytes) : Prop :=
  ∀ label ∈ labels, ∀ label' ∈ labels, ∀ info ∈ infos, ∀ info' ∈ infos,
    hkdf.expand (hkdf.expand prk label) info = hkdf.expand (hkdf.expand prk label') info' → label = label' ∧ info = info'

structure FrameDomain where
  mode : FrameMode
  channelId : UInt64
  deriving DecidableEq

structure PeerSessionKeys (Key : Type) where
  role : PeerRole
  sessionId : SessionId
  contextHash : Vector UInt8 32
  handshakeInitiatorToResponder : Key
  handshakeResponderToInitiator : Key
  candidateMacInitiatorToResponder : Key
  candidateMacResponderToInitiator : Key
  streamInitiatorToResponder : Key
  streamResponderToInitiator : Key
  datagramInitiatorToResponder : Key
  datagramResponderToInitiator : Key
  issuedSealers : List FrameDomain
  issuedOpeners : List FrameDomain

def PeerRole.other : PeerRole → PeerRole
  | .initiator => .responder
  | .responder => .initiator

@[simp] theorem PeerRole.other_other (role : PeerRole) : role.other.other = role := by
  cases role <;> rfl

theorem PeerRole.other_ne (role : PeerRole) : role.other ≠ role := by
  cases role <;> decide

theorem PeerRole.eq_or_other (role role' : PeerRole) : role' = role ∨ role' = role.other := by
  cases role <;> cases role' <;> decide

def localEphemeral (transcript : Orchestration.PeerTranscript) : PeerRole → Vector UInt8 32
  | .initiator => transcript.initiatorEphemeral
  | .responder => transcript.responderEphemeral

def peerEphemeral (transcript : Orchestration.PeerTranscript) : PeerRole → Vector UInt8 32
  | .initiator => transcript.responderEphemeral
  | .responder => transcript.initiatorEphemeral

def frameKeyDomain : Bytes := utf8 "rustgo-peer-frame-key-v1"

def frameKeyInfo (contextHash : Vector UInt8 32) (sessionId : SessionId) (mode : FrameMode) (channelId : UInt64) : Bytes :=
  frameKeyDomain ++ appendBytes contextHash.toList ++ appendBytes sessionId.bytes.toList ++
    ([frameModeTag mode] ++ be 8 channelId.toNat)

def deriveFrameKey (hkdf : Hkdf Key) (baseKey : Key) (contextHash : Vector UInt8 32) (sessionId : SessionId)
    (mode : FrameMode) (channelId : UInt64) : Key :=
  hkdf.expand baseKey (frameKeyInfo contextHash sessionId mode channelId)

def issueDomain (issued : List FrameDomain) (mode : FrameMode) (channelId : UInt64) :
    Except PeerCryptoError (FrameDomain × List FrameDomain) := do
  validateChannelId channelId
  require (⟨mode, channelId⟩ ∉ issued) .domainAlreadyIssued
  pure (⟨mode, channelId⟩, ⟨mode, channelId⟩ :: issued)

namespace PeerSessionKeys

def derive (x25519 : X25519 Secret) (hkdf : Hkdf Key) (role : PeerRole) (ephemeral : Secret)
    (transcript : Orchestration.PeerTranscript) : Except PeerCryptoError (PeerSessionKeys Key) := do
  require (x25519.publicKey ephemeral = localEphemeral transcript role) .localEphemeralKeyMismatch
  let shared := x25519.diffieHellman ephemeral (peerEphemeral transcript role)
  require (x25519.wasContributory shared = true) .invalidPeerEphemeralKey
  let contextHash := Sha256.digest transcript.asBytes
  let prk := hkdf.extract contextHash shared
  pure {
    role := role
    sessionId := transcript.sessionId
    contextHash := contextHash
    handshakeInitiatorToResponder := hkdf.expand prk (utf8 "rustgo-peer-handshake-initiator-to-responder-v1")
    handshakeResponderToInitiator := hkdf.expand prk (utf8 "rustgo-peer-handshake-responder-to-initiator-v1")
    candidateMacInitiatorToResponder := hkdf.expand prk (utf8 "rustgo-peer-tcp-candidate-mac-initiator-to-responder-v1")
    candidateMacResponderToInitiator := hkdf.expand prk (utf8 "rustgo-peer-tcp-candidate-mac-responder-to-initiator-v1")
    streamInitiatorToResponder := hkdf.expand prk (utf8 "rustgo-peer-stream-initiator-to-responder-v1")
    streamResponderToInitiator := hkdf.expand prk (utf8 "rustgo-peer-stream-responder-to-initiator-v1")
    datagramInitiatorToResponder := hkdf.expand prk (utf8 "rustgo-peer-datagram-initiator-to-responder-v1")
    datagramResponderToInitiator := hkdf.expand prk (utf8 "rustgo-peer-datagram-responder-to-initiator-v1")
    issuedSealers := []
    issuedOpeners := [] }

variable (keys : PeerSessionKeys Key)

def outgoingDirection : PeerRole := keys.role

def incomingDirection : PeerRole := keys.role.other

def outgoingStreamKey : Key :=
  match keys.role with
  | .initiator => keys.streamInitiatorToResponder
  | .responder => keys.streamResponderToInitiator

def incomingStreamKey : Key :=
  match keys.role with
  | .initiator => keys.streamResponderToInitiator
  | .responder => keys.streamInitiatorToResponder

def outgoingDatagramKey : Key :=
  match keys.role with
  | .initiator => keys.datagramInitiatorToResponder
  | .responder => keys.datagramResponderToInitiator

def incomingDatagramKey : Key :=
  match keys.role with
  | .initiator => keys.datagramResponderToInitiator
  | .responder => keys.datagramInitiatorToResponder

variable (hkdf : Hkdf Key)

/-- The domain stays issued whatever becomes of the sealer. -/
def sealerUnder (baseKey : Key) (mode : FrameMode) (channelId : UInt64) :
    Except PeerCryptoError (PeerFrameSealer Key) × PeerSessionKeys Key :=
  match issueDomain keys.issuedSealers mode channelId with
  | .error e => (.error e, keys)
  | .ok (domain, issued) =>
      (PeerFrameSealer.new keys.sessionId domain.channelId keys.contextHash
        (deriveFrameKey hkdf baseKey keys.contextHash keys.sessionId domain.mode domain.channelId) domain.mode
        (noncePrefix mode keys.outgoingDirection), { keys with issuedSealers := issued })

def openerUnder (baseKey : Key) (mode : FrameMode) (channelId : UInt64) :
    Except PeerCryptoError (PeerFrameOpener Key) × PeerSessionKeys Key :=
  match issueDomain keys.issuedOpeners mode channelId with
  | .error e => (.error e, keys)
  | .ok (domain, issued) =>
      (PeerFrameOpener.new keys.sessionId domain.channelId keys.contextHash
        (deriveFrameKey hkdf baseKey keys.contextHash keys.sessionId domain.mode domain.channelId) domain.mode
        (noncePrefix mode keys.incomingDirection), { keys with issuedOpeners := issued })

variable (channelId : UInt64)

def streamSealer : Except PeerCryptoError (PeerFrameSealer Key) × PeerSessionKeys Key :=
  keys.sealerUnder hkdf keys.outgoingStreamKey .ordered channelId

def streamOpener : Except PeerCryptoError (PeerFrameOpener Key) × PeerSessionKeys Key :=
  keys.openerUnder hkdf keys.incomingStreamKey .ordered channelId

def datagramSealer : Except PeerCryptoError (PeerFrameSealer Key) × PeerSessionKeys Key :=
  keys.sealerUnder hkdf keys.outgoingDatagramKey .datagram channelId

def datagramOpener : Except PeerCryptoError (PeerFrameOpener Key) × PeerSessionKeys Key :=
  keys.openerUnder hkdf keys.incomingDatagramKey .datagram channelId

def outgoingKey : FrameMode → Key
  | .ordered => keys.outgoingStreamKey
  | .datagram => keys.outgoingDatagramKey

def incomingKey : FrameMode → Key
  | .ordered => keys.incomingStreamKey
  | .datagram => keys.incomingDatagramKey

def sealer : FrameMode → Except PeerCryptoError (PeerFrameSealer Key) × PeerSessionKeys Key
  | .ordered => keys.streamSealer hkdf channelId
  | .datagram => keys.datagramSealer hkdf channelId

def opener : FrameMode → Except PeerCryptoError (PeerFrameOpener Key) × PeerSessionKeys Key
  | .ordered => keys.streamOpener hkdf channelId
  | .datagram => keys.datagramOpener hkdf channelId

end PeerSessionKeys

section Issuing

variable {hkdf : Hkdf Key} {keys keys' : PeerSessionKeys Key} {mode : FrameMode} {channelId : UInt64}

theorem issueDomain_eq_ok {issued issued' : List FrameDomain} {domain : FrameDomain} :
    issueDomain issued mode channelId = .ok (domain, issued') ↔
      channelId ≠ 0 ∧ ⟨mode, channelId⟩ ∉ issued ∧ ⟨mode, channelId⟩ = domain ∧ ⟨mode, channelId⟩ :: issued = issued' := by
  simp only [issueDomain, validateChannelId, bind_eq_ok, require_eq_ok, pure_eq_ok, Prod.mk.injEq, exists_and_left,
    exists_const]

theorem issueDomain_cases (issued : List FrameDomain) (mode : FrameMode) (channelId : UInt64) :
    (∃ e, issueDomain issued mode channelId = .error e) ∨ channelId ≠ 0 ∧ ⟨mode, channelId⟩ ∉ issued ∧
      issueDomain issued mode channelId = .ok (⟨mode, channelId⟩, ⟨mode, channelId⟩ :: issued) := by
  rcases eq_ok_or_error (issueDomain issued mode channelId) with ⟨⟨domain, issued'⟩, h⟩ | h
  · obtain ⟨hc, hnew, rfl, rfl⟩ := issueDomain_eq_ok.mp h
    exact .inr ⟨hc, hnew, h⟩
  · exact .inl h

theorem sealer_eq (keys : PeerSessionKeys Key) (hkdf : Hkdf Key) (mode : FrameMode) (channelId : UInt64) :
    keys.sealer hkdf channelId mode = keys.sealerUnder hkdf (keys.outgoingKey mode) mode channelId := by
  cases mode <;> rfl

theorem opener_eq (keys : PeerSessionKeys Key) (hkdf : Hkdf Key) (mode : FrameMode) (channelId : UInt64) :
    keys.opener hkdf channelId mode = keys.openerUnder hkdf (keys.incomingKey mode) mode channelId := by
  cases mode <;> rfl

/-- A request for a sealer is refused, or issues a domain not issued before. -/
theorem sealer_cases (keys : PeerSessionKeys Key) (hkdf : Hkdf Key) (mode : FrameMode) (channelId : UInt64) :
    (∃ e, keys.sealer hkdf channelId mode = (.error e, keys)) ∨
      channelId ≠ 0 ∧ ⟨mode, channelId⟩ ∉ keys.issuedSealers ∧ keys.sealer hkdf channelId mode =
        (.ok ⟨keys.sessionId, channelId, keys.contextHash,
          deriveFrameKey hkdf (keys.outgoingKey mode) keys.contextHash keys.sessionId mode channelId, mode,
          noncePrefix mode keys.role, 0, false, false⟩,
          { keys with issuedSealers := ⟨mode, channelId⟩ :: keys.issuedSealers }) := by
  rw [sealer_eq, PeerSessionKeys.sealerUnder]
  rcases issueDomain_cases keys.issuedSealers mode channelId with ⟨e, h⟩ | ⟨hc, hnew, h⟩
  · exact .inl ⟨e, by rw [h]⟩
  · refine .inr ⟨hc, hnew, ?_⟩
    simp only [h, PeerFrameSealer.new, validateChannelId, require_of hc, ok_bind, PeerSessionKeys.outgoingDirection]
    rfl

theorem opener_cases (keys : PeerSessionKeys Key) (hkdf : Hkdf Key) (mode : FrameMode) (channelId : UInt64) :
    (∃ e, keys.opener hkdf channelId mode = (.error e, keys)) ∨
      channelId ≠ 0 ∧ ⟨mode, channelId⟩ ∉ keys.issuedOpeners ∧ ∃ state, keys.opener hkdf channelId mode =
        (.ok ⟨keys.sessionId, channelId, keys.contextHash,
          deriveFrameKey hkdf (keys.incomingKey mode) keys.contextHash keys.sessionId mode channelId, mode,
          noncePrefix mode keys.role.other, state, false⟩,
          { keys with issuedOpeners := ⟨mode, channelId⟩ :: keys.issuedOpeners }) ∧
        state = match mode with
          | .ordered => .ordered 0 false
          | .datagram => .datagram ⟨none, 0⟩ := by
  rw [opener_eq, PeerSessionKeys.openerUnder]
  rcases issueDomain_cases keys.issuedOpeners mode channelId with ⟨e, h⟩ | ⟨hc, hnew, h⟩
  · exact .inl ⟨e, by rw [h]⟩
  · refine .inr ⟨hc, hnew, _, ?_, rfl⟩
    simp only [h, PeerFrameOpener.new, validateChannelId, require_of hc, ok_bind, PeerSessionKeys.incomingDirection]
    rfl

end Issuing

section Labels

def frameLabel : FrameMode → PeerRole → Bytes
  | .ordered, .initiator => utf8 "rustgo-peer-stream-initiator-to-responder-v1"
  | .ordered, .responder => utf8 "rustgo-peer-stream-responder-to-initiator-v1"
  | .datagram, .initiator => utf8 "rustgo-peer-datagram-initiator-to-responder-v1"
  | .datagram, .responder => utf8 "rustgo-peer-datagram-responder-to-initiator-v1"

theorem frameLabel_injective {m m' : FrameMode} {d d' : PeerRole} (h : frameLabel m d = frameLabel m' d') :
    m = m' ∧ d = d' := by
  revert h
  cases m <;> cases d <;> cases m' <;> cases d' <;> decide

theorem frameKeyInfo_injective {hash : Vector UInt8 32} {session : SessionId} {m m' : FrameMode} {c c' : UInt64}
    (h : frameKeyInfo hash session m c = frameKeyInfo hash session m' c') : m = m' ∧ c = c' := by
  have hfields := List.append_cancel_left h
  simp only [List.singleton_append, List.cons.injEq] at hfields
  refine ⟨?_, be_uInt64_injective hfields.2⟩
  have htag := hfields.1
  revert htag
  cases m <;> cases m' <;> decide

def frameLabels : Set Bytes := { label | ∃ mode direction, frameLabel mode direction = label }

def frameInfos (contextHash : Vector UInt8 32) (sessionId : SessionId) : Set Bytes :=
  { info | ∃ mode channelId, frameKeyInfo contextHash sessionId mode channelId = info }

end Labels

end Rustgo.PeerCipher
