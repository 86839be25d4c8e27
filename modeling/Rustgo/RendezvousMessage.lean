import Rustgo.MessageFormat
import Rustgo.PeerFrame
import Rustgo.Checks

namespace Rustgo.Rendezvous

open Checks Postcard Protocol

def maxCandidates : Nat := 32
def maxDeviceNameBytes : Nat := 128
def maxExportNameBytes : Nat := 128
def maxFoundationBytes : Nat := 64
def maxObservationSourceBytes : Nat := 128
def maxEphemeralPublicKeyBytes : Nat := 64
def maxTransportKeyBindings : Nat := 3

structure CandidateGeneration where
  value : UInt64
  nonzero : value ≠ 0
  deriving DecidableEq

def CandidateGeneration.INITIAL : CandidateGeneration := ⟨1, by decide⟩

theorem CandidateGeneration.one_ne_zero : (1 : UInt64) ≠ 0 := by decide

theorem CandidateGeneration.two_ne_zero : (2 : UInt64) ≠ 0 := by decide

def CandidateGeneration.new (value : UInt64) : Option CandidateGeneration :=
  if h : value ≠ 0 then some ⟨value, h⟩ else none

inductive CandidateTransport
  | quicUdp
  | nativeTcp
  | relay
  deriving DecidableEq

structure Candidate where
  transport : CandidateTransport
  address : SocketAddress
  priority : UInt32
  foundation : BoundedString maxFoundationBytes
  generation : CandidateGeneration
  expiresUnixSecs : UInt64
  observationSource : BoundedString maxObservationSourceBytes
  deriving DecidableEq

structure RendezvousRequest where
  exportName : BoundedString maxExportNameBytes
  deriving DecidableEq

/-- Only an acceptance names a protocol, and only a rejection a detail. -/
inductive ProviderDecision
  | accepted (protocol : TunnelProtocol)
  | rejected (detail : Option (BoundedString maxErrorDetailBytes))
  deriving DecidableEq

namespace ProviderDecision

def isAccepted : ProviderDecision → Bool
  | accepted _ => true
  | rejected _ => false

def protocol : ProviderDecision → Option TunnelProtocol
  | accepted p => some p
  | rejected _ => none

def detail : ProviderDecision → Option (BoundedString maxErrorDetailBytes)
  | accepted _ => none
  | rejected d => d

end ProviderDecision

structure CandidateSet where
  ephemeralPublicKey : BoundedBytes maxEphemeralPublicKeyBytes
  candidates : BoundedVec Candidate maxCandidates
  deriving DecidableEq

structure TransportKeyBinding where
  transport : CandidateTransport
  ephemeralPublicKey : BoundedBytes maxEphemeralPublicKeyBytes
  deriving DecidableEq

structure CandidateSetV2 where
  ownerIsInitiator : Bool
  bindings : BoundedVec TransportKeyBinding maxTransportKeyBindings
  candidates : BoundedVec Candidate maxCandidates
  deriving DecidableEq

/-- The transports bound so far, in order. -/
def CandidateSetV2.validateBindings :
    List CandidateTransport → List TransportKeyBinding → Except WireError (List CandidateTransport)
  | seen, [] => .ok seen
  | seen, binding :: rest =>
      if binding.ephemeralPublicKey.bytes.length ≠ 32 ∨ binding.transport ∈ seen then
        .error .invalidTransportBindings
      else validateBindings (seen ++ [binding.transport]) rest

def CandidateSetV2.validate (set : CandidateSetV2) : Except WireError Unit := do
  let seen ← validateBindings [] set.bindings.items
  require (seen ≠ [] ∧ ∀ c ∈ set.candidates.items, c.generation.value ≠ 0 ∧ c.transport ∈ seen)
    .invalidTransportBindings

structure ConnectivityResult where
  connected : Bool
  transport : Option CandidateTransport
  detail : Option (BoundedString maxErrorDetailBytes)
  deriving DecidableEq

structure RelayRequest where
  datagram : Bool
  deriving DecidableEq

structure RendezvousClose where
  detail : Option (BoundedString maxErrorDetailBytes)
  deriving DecidableEq

structure RendezvousError where
  code : UInt16
  detail : BoundedString maxErrorDetailBytes
  deriving DecidableEq

inductive RendezvousPayload
  | request (value : RendezvousRequest)
  | providerDecision (value : ProviderDecision)
  | candidateSet (value : CandidateSet)
  | candidateSetV2 (value : CandidateSetV2)
  | connectivityResult (value : ConnectivityResult)
  | relayRequest (value : RelayRequest)
  | close (value : RendezvousClose)
  | error (value : RendezvousError)
  deriving DecidableEq

def RendezvousPayload.asRequest : RendezvousPayload → Option RendezvousRequest
  | .request value => some value
  | _ => none

def RendezvousPayload.asProviderDecision : RendezvousPayload → Option ProviderDecision
  | .providerDecision value => some value
  | _ => none

def RendezvousPayload.messageId : RendezvousPayload → MessageId
  | .request _ => .rendezvousRequest
  | .providerDecision _ => .rendezvousProviderDecision
  | .candidateSet _ => .rendezvousCandidateSet
  | .candidateSetV2 _ => .rendezvousCandidateSetV2
  | .connectivityResult _ => .rendezvousConnectivityResult
  | .relayRequest _ => .rendezvousRelayRequest
  | .close _ => .rendezvousClose
  | .error _ => .rendezvousError

structure RendezvousEnvelope where
  version : ProtocolVersion
  sessionId : SessionId
  sender : BoundedString maxDeviceNameBytes
  target : BoundedString maxDeviceNameBytes
  step : UInt64
  generation : CandidateGeneration
  expiresUnixSecs : UInt64
  payload : RendezvousPayload
  signature : BoundedBytes maxSignatureBytes
  deriving DecidableEq

namespace RendezvousFormat

open MessageFormat

def sessionId : Format SessionId := (Format.array 32).iso SessionId.bytes (fun b => ⟨b⟩) (fun _ => rfl)

def candidateGeneration : Format CandidateGeneration :=
  Format.u64.via CandidateGeneration.value CandidateGeneration.new
    (fun g => by rw [CandidateGeneration.new, dif_pos g.nonzero])

def candidateTransports : List CandidateTransport := [.quicUdp, .nativeTcp, .relay]

def candidateTransport : Format CandidateTransport :=
  (Format.variant 3 (by decide)).via (fun t => Fin.ofNat 3 (candidateTransports.idxOf t))
    (fun i => candidateTransports[i.val]?) (fun t => by cases t <;> rfl)

def candidate : Format Candidate :=
  (candidateTransport.pair (socketAddress.pair (Format.u32.pair ((boundedString _ (by decide)).pair
    (candidateGeneration.pair (Format.u64.pair (boundedString _ (by decide)))))))).iso
    (fun v => (v.transport, v.address, v.priority, v.foundation, v.generation, v.expiresUnixSecs,
      v.observationSource))
    (fun p => ⟨p.1, p.2.1, p.2.2.1, p.2.2.2.1, p.2.2.2.2.1, p.2.2.2.2.2.1, p.2.2.2.2.2.2⟩) (fun _ => rfl)

def ephemeralPublicKey : Format (BoundedBytes maxEphemeralPublicKeyBytes) := boundedBytes _ (by decide)

def rendezvousRequest : Format RendezvousRequest :=
  (boundedString _ (by decide)).iso (fun v => v.exportName) (fun v => ⟨v⟩) (fun _ => rfl)

def providerDecision : Format ProviderDecision :=
  (Format.bool.pair (tunnelProtocol.option.pair errorDetail.option)).via
    (fun v => (v.isAccepted, v.protocol, v.detail))
    (fun
      | (true, some protocol, none) => some (.accepted protocol)
      | (false, none, detail) => some (.rejected detail)
      | _ => none)
    (fun v => by cases v <;> rfl)

def candidateSet : Format CandidateSet :=
  (ephemeralPublicKey.pair (boundedVec candidate _ (by decide))).iso (fun v => (v.ephemeralPublicKey, v.candidates))
    (fun p => ⟨p.1, p.2⟩) (fun _ => rfl)

def transportKeyBinding : Format TransportKeyBinding :=
  (candidateTransport.pair ephemeralPublicKey).iso (fun v => (v.transport, v.ephemeralPublicKey))
    (fun p => ⟨p.1, p.2⟩) (fun _ => rfl)

def candidateSetV2 : Format CandidateSetV2 :=
  (Format.bool.pair ((boundedVec transportKeyBinding _ (by decide)).pair (boundedVec candidate _ (by decide)))).iso
    (fun v => (v.ownerIsInitiator, v.bindings, v.candidates)) (fun p => ⟨p.1, p.2.1, p.2.2⟩) (fun _ => rfl)

def connectivityResult : Format ConnectivityResult :=
  (Format.bool.pair (candidateTransport.option.pair errorDetail.option)).iso
    (fun v => (v.connected, v.transport, v.detail)) (fun p => ⟨p.1, p.2.1, p.2.2⟩) (fun _ => rfl)

def relayRequest : Format RelayRequest := Format.bool.iso RelayRequest.datagram (fun v => ⟨v⟩) (fun _ => rfl)

def rendezvousClose : Format RendezvousClose :=
  errorDetail.option.iso RendezvousClose.detail (fun v => ⟨v⟩) (fun _ => rfl)

def rendezvousError : Format RendezvousError :=
  (Format.u16.pair errorDetail).iso (fun v => (v.code, v.detail)) (fun p => ⟨p.1, p.2⟩) (fun _ => rfl)

def payloadIndex : Format (Fin 8) := Format.variant 8 (by decide)

theorem length_tagged {α : Type} {f : Format α} (i : Fin 8) (v : α) {w : Nat} (h : f.width ≤ w) :
    (payloadIndex.write i ++ f.write v).length ≤ 1 + w := by
  rw [List.length_append]
  exact Nat.add_le_add (payloadIndex.write_length i) ((f.write_length v).trans h)

def payload : Format RendezvousPayload where
  write
    | .request v => payloadIndex.write 0 ++ rendezvousRequest.write v
    | .providerDecision v => payloadIndex.write 1 ++ providerDecision.write v
    | .candidateSet v => payloadIndex.write 2 ++ candidateSet.write v
    | .candidateSetV2 v => payloadIndex.write 3 ++ candidateSetV2.write v
    | .connectivityResult v => payloadIndex.write 4 ++ connectivityResult.write v
    | .relayRequest v => payloadIndex.write 5 ++ relayRequest.write v
    | .close v => payloadIndex.write 6 ++ rendezvousClose.write v
    | .error v => payloadIndex.write 7 ++ rendezvousError.write v
  read bytes := do
    let (index, rest) ← payloadIndex.read bytes
    match index with
    | 0 => (rendezvousRequest.read rest).map fun p => (.request p.1, p.2)
    | 1 => (providerDecision.read rest).map fun p => (.providerDecision p.1, p.2)
    | 2 => (candidateSet.read rest).map fun p => (.candidateSet p.1, p.2)
    | 3 => (candidateSetV2.read rest).map fun p => (.candidateSetV2 p.1, p.2)
    | 4 => (connectivityResult.read rest).map fun p => (.connectivityResult p.1, p.2)
    | 5 => (relayRequest.read rest).map fun p => (.relayRequest p.1, p.2)
    | 6 => (rendezvousClose.read rest).map fun p => (.close p.1, p.2)
    | 7 => (rendezvousError.read rest).map fun p => (.error p.1, p.2)
  width := 1 + candidateSetV2.width
  read_write p rest := by
    cases p <;> simp [List.append_assoc, Format.read_write]
  write_length p := by
    cases p with
    | request v => exact length_tagged 0 v (by decide)
    | providerDecision v => exact length_tagged 1 v (by decide)
    | candidateSet v => exact length_tagged 2 v (by decide)
    | candidateSetV2 v => exact length_tagged 3 v (by decide)
    | connectivityResult v => exact length_tagged 4 v (by decide)
    | relayRequest v => exact length_tagged 5 v (by decide)
    | close v => exact length_tagged 6 v (by decide)
    | error v => exact length_tagged 7 v (by decide)

def protocolVersion : Format ProtocolVersion :=
  (Format.u16.pair Format.u16).iso (fun v => (v.major, v.minor)) (fun p => ⟨p.1, p.2⟩) (fun _ => rfl)

def deviceName : Format (BoundedString maxDeviceNameBytes) := boundedString _ (by decide)

theorem maxSignatureBytes_lt : maxSignatureBytes < 2 ^ 64 := by decide

def envelope : Format RendezvousEnvelope :=
  (protocolVersion.pair (sessionId.pair (deviceName.pair (deviceName.pair (Format.u64.pair
    (candidateGeneration.pair (Format.u64.pair (payload.pair (boundedBytes _ maxSignatureBytes_lt))))))))).iso
    (fun v => (v.version, v.sessionId, v.sender, v.target, v.step, v.generation, v.expiresUnixSecs, v.payload,
      v.signature))
    (fun p => ⟨p.1, p.2.1, p.2.2.1, p.2.2.2.1, p.2.2.2.2.1, p.2.2.2.2.2.1, p.2.2.2.2.2.2.1, p.2.2.2.2.2.2.2.1,
      p.2.2.2.2.2.2.2.2⟩) (fun _ => rfl)

def peerRelayFlags : Format PeerRelayFlags :=
  Format.byte.via PeerRelayFlags.bits PeerRelayFlags.tryFrom
    (fun f => by rw [PeerRelayFlags.tryFrom, dif_pos f.supported])

/-- A relay frame as it is written, before the checks of the reader. -/
def wirePeerRelayFrame : Format PeerRelayFrame :=
  (sessionId.pair (Format.u64.pair (Format.u64.pair (peerRelayFlags.pair (Format.u32.pair
    (boundedBytes _ (by decide))))))).iso
    (fun v => (v.sessionId, v.channelId, v.sequence, v.flags, v.ciphertextLen, v.ciphertext))
    (fun p => ⟨p.1, p.2.1, p.2.2.1, p.2.2.2.1, p.2.2.2.2.1, p.2.2.2.2.2⟩) (fun _ => rfl)

end RendezvousFormat

def RendezvousEnvelope.messageId (envelope : RendezvousEnvelope) : MessageId := envelope.payload.messageId

def opaqueMessage : RendezvousPayload → OpaqueRendezvousMessage → Message
  | .request _ => .rendezvousRequest
  | .providerDecision _ => .rendezvousProviderDecision
  | .candidateSet _ => .rendezvousCandidateSet
  | .candidateSetV2 _ => .rendezvousCandidateSetV2
  | .connectivityResult _ => .rendezvousConnectivityResult
  | .relayRequest _ => .rendezvousRelayRequest
  | .close _ => .rendezvousClose
  | .error _ => .rendezvousError

def RendezvousEnvelope.toProtocolMessage (envelope : RendezvousEnvelope) : Except WireError Message :=
  match BoundedBytes.tryFrom maxRendezvousEnvelopeBytes (RendezvousFormat.envelope.write envelope) with
  | .ok encoded => .ok (opaqueMessage envelope.payload encoded)
  | .error bound => .error (.envelopeTooLarge bound)

def relayMessage (frame : PeerRelayFrame) : Except WireError Message :=
  match BoundedBytes.tryFrom maxPeerRelayFrameBytes (RendezvousFormat.wirePeerRelayFrame.write frame) with
  | .ok encoded => .ok (.peerRelayFrame encoded)
  | .error bound => .error (.relayFrameTooLarge bound)

/-- Every envelope fits its bound, whatever its fields hold. -/
theorem toProtocolMessage_eq_ok (envelope : RendezvousEnvelope) :
    ∃ message, envelope.toProtocolMessage = .ok message := by
  have hle : (RendezvousFormat.envelope.write envelope).length ≤ maxRendezvousEnvelopeBytes :=
    (RendezvousFormat.envelope.write_length envelope).trans (by decide)
  exact ⟨_, by simp only [RendezvousEnvelope.toProtocolMessage, BoundedBytes.tryFrom_of_le hle]; rfl⟩

theorem relayMessage_eq_ok (frame : PeerRelayFrame) : ∃ message, relayMessage frame = .ok message := by
  have hle : (RendezvousFormat.wirePeerRelayFrame.write frame).length ≤ maxPeerRelayFrameBytes :=
    (RendezvousFormat.wirePeerRelayFrame.write_length frame).trans (by decide)
  exact ⟨_, by simp only [relayMessage, BoundedBytes.tryFrom_of_le hle]; rfl⟩

end Rustgo.Rendezvous
