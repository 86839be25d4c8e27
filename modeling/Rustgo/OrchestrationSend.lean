import Rustgo.OrchestrationState

namespace Rustgo.Orchestration

open Checks Coordinator Path Protocol Rendezvous Tables

abbrev Act (α : Type) := Call IoError Actor α

def refuse {α : Type} (e : IoError) : Act α := .read fun _ => .error e

/-- `self.sessions.get(&id).ok_or_else(invalid)`. -/
def getSession (id : SessionId) : Act Session := .read fun s => okOr (s.sessions.lookup id) .invalid

/-- Writes through `self.sessions.get_mut(&id).ok_or_else(invalid)`. -/
def editSession (id : SessionId) (f : Session → Session) : Act Unit := do
  let session ← getSession id
  .update fun s => s.put id (f session)

def emit (effect : Effect) : Act Unit := .update fun s => { s with effects := s.effects ++ [effect] }

/-- A reply that is no longer there is not sent. -/
def answer (reply : Option Nat) (result : Except IoError Opened) : Act Unit :=
  match reply with
  | some reply => emit (.replied reply result)
  | none => pure ()

/-- `send_peer_control`: it fails once the control connection is gone. -/
def sendPeerControl (message : PeerMessage) : Act Unit := do
  .read fun s => require (s.room ≠ some 0) .closed
  .update fun s => { s with outbox := s.outbox ++ [message], room := s.room.map (· - 1) }

def noteRequested (id : SessionId) : Act Unit :=
  .update fun s => { s with trace := { s.trace with requested := s.trace.requested ++ [id] } }

def noteGranted (recipient : Option SessionId) : Act Unit :=
  .update fun s => { s with trace := { s.trace with granted := s.trace.granted ++ [recipient] } }

def noteSent (envelope : RendezvousEnvelope) : Act Unit :=
  .update fun s => { s with trace := { s.trace with sent := s.trace.sent ++ [envelope] } }

def noteApplied (envelope : RendezvousEnvelope) : Act Unit :=
  .update fun s => { s with trace := { s.trace with applied := s.trace.applied ++ [envelope] } }

def pushWaiter (id : SessionId) : Act Unit :=
  .update fun s => { s with observationWaiters := s.observationWaiters ++ [id] }

section Runtime

variable (runtime : Runtime)

def requestObservation (id : SessionId) : Act Unit :=
  if runtime.observationEndpoints = none then pure ()
  else do
    pushWaiter id
    sendPeerControl .observationGrantRequest
    noteRequested id

/-- The generation is that of the session as it is now; a session that is gone
gets the initial one. -/
def signedEnvelope (s : Actor) (id : SessionId) (peer : String) (step expiry : UInt64) (payload : RendezvousPayload) :
    Except IoError RendezvousEnvelope := do
  let sender ← orFail (BoundedString.tryFrom maxDeviceNameBytes runtime.name) .invalid
  let target ← orFail (BoundedString.tryFrom maxDeviceNameBytes peer) .invalid
  let envelope : RendezvousEnvelope :=
    { version := s.version
      sessionId := id
      sender := sender
      target := target
      step := step
      generation := (s.sessions.lookup id).elim .INITIAL Session.generation
      expiresUnixSecs := expiry
      payload := payload
      signature := ⟨[], Nat.zero_le _⟩ }
  let signature ← okOr (runtime.sign envelope) .invalid
  pure { envelope with signature := signature }

def sendEnvelope (envelope : RendezvousEnvelope) : Act Unit := do
  .read fun _ => (orFail envelope.toProtocolMessage .invalid).map fun _ => ()
  sendPeerControl (.envelope envelope)
  noteSent envelope

def setNextStep (step : UInt64) (session : Session) : Session := { session with nextStep := step }

def sendPayload (id : SessionId) (payload : RendezvousPayload) : Act Unit := do
  let session ← getSession id
  let next ← .read fun _ => okOr (checkedAdd session.nextStep 1) .invalid
  editSession id (setNextStep next)
  let envelope ← .read fun s => signedEnvelope runtime s id session.peer session.nextStep session.expiry payload
  sendEnvelope envelope

def lookupIdentity (id : SessionId) : Act Unit := do
  let session ← getSession id
  let peer ← .read fun _ => orFail (BoundedString.tryFrom maxClientNameBytes session.peer) .invalid
  sendPeerControl (.peerIdentityLookup ⟨id.bytes, peer⟩)

def takeReply (session : Session) : Session := { session with reply := none }

/-- Removing a session that is gone does nothing. -/
def failSession (id : SessionId) (error : IoError) : Act Unit := do
  let found ← .read fun s => .ok (s.sessions.lookup id)
  match found with
  | none => pure ()
  | some session =>
      .update fun s => { s.drop id with trace := { s.trace with failed := s.trace.failed ++ [(id, error)] } }
      answer session.reply (.error error)

/-- `TransportKeyBinding`s of the local keys, in the order of the map. -/
def transportBindings (session : Session) : Except IoError (List TransportKeyBinding) :=
  runtime.transportOrder.filterMapM fun transport =>
    match session.localEphemeralPublic.lookup transport with
    | none => .ok none
    | some key => do
        let bytes ← orFail (BoundedBytes.tryFrom maxEphemeralPublicKeyBytes key.value.toList) .invalid
        pure (some ⟨transport, bytes⟩)

def localCandidate (session : Session) (transport : CandidateTransport) (address : SocketAddress) (priority : UInt32)
    (foundation source : String) : Except IoError Candidate := do
  let foundation ← orFail (BoundedString.tryFrom maxFoundationBytes foundation) .invalid
  let source ← orFail (BoundedString.tryFrom maxObservationSourceBytes source) .invalid
  pure
    { transport := transport
      address := address
      priority := priority
      foundation := foundation
      generation := session.generation
      expiresUnixSecs := session.expiry
      observationSource := source }

/-- `local_candidates`, with the address of the bound socket for the first. -/
def localCandidates (id : SessionId) (session : Session) : Except IoError (List Candidate) := do
  let ip ← runtime.localIp
  let quic ← runtime.localSocket id .quicUdp
  let tcp ← runtime.localSocket id .nativeTcp
  let source := if ip.isLoopback then "loopback" else "local-route"
  let first ← localCandidate session .quicUdp (session.quicSocket.getD quic) 500 "local-quic" source
  let second ← localCandidate session .nativeTcp tcp 400 "local-tcp" source
  pure [first, second]

def observedCandidates (session : Session) : Except IoError (List Candidate) :=
  ((session.observedUdp.take 2).zipIdx).mapM fun (observed, index) =>
    localCandidate session .quicUdp observed.value (700 - UInt32.ofNat index)
      (if index = 0 then "observed-primary" else "observed-alternate") "rustgos-authenticated-observation"

def observedTcpCandidate (id : SessionId) (session : Session) : Except IoError (List Candidate) :=
  match session.observedUdp.head? <|> session.cachedTcpObservedIp with
  | none => .ok []
  | some observed => do
      let tcp ← runtime.localSocket id .nativeTcp
      let candidate ← localCandidate session .nativeTcp (withPort observed.value (port tcp)) 650
        "observed-ip-native-tcp" "rustgos-authenticated-observation-ip"
      pure [candidate]

def candidateSetOf (id : SessionId) (session : Session) : Except IoError CandidateSetV2 := do
  let bindings ← transportBindings runtime session
  let own ← localCandidates runtime id session
  let observed ← observedCandidates session
  let tcp ← observedTcpCandidate runtime id session
  let bindings ← orFail (BoundedVec.tryFrom maxTransportKeyBindings bindings) .invalid
  let candidates ← orFail (BoundedVec.tryFrom maxCandidates (own ++ observed ++ tcp)) .invalid
  pure ⟨session.role = .initiator, bindings, candidates⟩

def candidateSetDigest (set : CandidateSetV2) : Vector UInt8 32 :=
  runtime.sha256 (RendezvousFormat.candidateSetV2.write set)

/-- Whether `send_candidates` has anything to send yet. -/
def candidatesDue (session : Session) : Bool :=
  session.protocol.isSome && session.providerDecisionAccepted && !session.resolveOnly &&
    decide (session.candidateSentGeneration < session.generation.value) &&
    (runtime.observationEndpoints.isNone || session.quicSocket.isSome)

/-- The candidate set of the current generation has gone out. -/
def setCandidatesSent (digest : Stamped (Vector UInt8 32)) (session : Session) : Session :=
  { session with
    candidateSentGeneration := session.generation.value
    localCandidatesDigest := some digest }

def sendCandidates (id : SessionId) : Act Unit := do
  let session ← getSession id
  if candidatesDue runtime session = false then pure ()
  else do
    let set ← .read fun _ => candidateSetOf runtime id session
    sendPayload runtime id (.candidateSetV2 set)
    editSession id (setCandidatesSent ⟨candidateSetDigest runtime set, session.epoch⟩)

end Runtime

end Rustgo.Orchestration
