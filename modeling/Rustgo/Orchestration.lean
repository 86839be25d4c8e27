import Rustgo.OrchestrationSend

namespace Rustgo.Orchestration

open Checks Coordinator Path Protocol Rendezvous Tables

variable (runtime : Runtime)

section Transcript

def transportTag : CandidateTransport → UInt8
  | .quicUdp => 1
  | .nativeTcp => 2
  | .relay => 3

def transcriptHashForTransport (id : SessionId) (session : Session) (transport : CandidateTransport) :
    Vector UInt8 32 :=
  let parties := match session.role with
    | .initiator => (runtime.name, session.peer)
    | .responder => (session.peer, runtime.name)
  runtime.sha256 ("rustgo-rendezvous-transcript-v1".toUTF8.toList ++ id.bytes.toList ++ parties.1.toUTF8.toList ++
    parties.2.toUTF8.toList ++ session.exportName.toUTF8.toList ++ be 8 session.expiry.toNat ++
    [transportTag transport])

/-- The transcript both ends derive their keys from. -/
def peerTranscript (s : Actor) (id : SessionId) (session : Session) (transport : CandidateTransport)
    (peerIdentity : DevicePublicKey) (localPublic peerPublic : Vector UInt8 32) : Except IoError PeerTranscript := do
  let exportName ← orFail (BoundedString.tryFrom maxExportNameBytes session.exportName) .invalid
  let initiator := session.role = .initiator
  pure
    { sessionId := id
      generation := session.generation
      initiatorIdentity := if initiator then runtime.identity else peerIdentity
      responderIdentity := if initiator then peerIdentity else runtime.identity
      initiatorEphemeral := if initiator then localPublic else peerPublic
      responderEphemeral := if initiator then peerPublic else localPublic
      exportName := exportName
      version := s.version
      hash := transcriptHashForTransport runtime id session transport }

end Transcript

section Direct

def directTransport (session : Session) : CandidateTransport :=
  if session.protocol = some .udp then .quicUdp else .nativeTcp

/-- `max_by_key` keeps the last of several candidates with the highest priority. -/
def bestCandidate (candidates : List (FromPeer Candidate)) (transport : CandidateTransport) : Option Candidate :=
  ((candidates.map FromPeer.value).filter fun candidate => candidate.transport = transport).foldl
    (fun best candidate =>
      match best with
      | none => some candidate
      | some chosen => if chosen.priority ≤ candidate.priority then some candidate else some chosen) none

/-- Whether `ensure_direct` has all it waits for. -/
def directDue (p2p : P2pConfig) (session : Session) : Bool :=
  !session.directStarted && p2p.preferDirect && !session.resolveOnly &&
    (runtime.observationEndpoints.isNone ||
      ((directTransport session ≠ .quicUdp || session.quicSocket.isSome) && session.punchGrant.isSome))

def removeLocalEphemeral (transport : CandidateTransport) (session : Session) : Session :=
  { session with localEphemerals := session.localEphemerals.erase transport }

def takeQuicSocket (session : Session) : Session := { session with quicSocket := none }

/-- The attempt for the transport, from a session whose private key was taken. -/
def directAttempt (s : Actor) (id : SessionId) (session : Session) (transport : CandidateTransport)
    (localKey : EphemeralPeerKey) (peerCandidate : Candidate) : Except IoError DirectAttempt := do
  let peerPublic ← okOr (session.peerEphemeralPublic.lookup transport) .invalid
  let localPublic ← okOr (session.localEphemeralPublic.lookup transport) .invalid
  let peerIdentity ← okOr session.peerKey .invalid
  let transcript ← peerTranscript runtime s id session transport peerIdentity localPublic.value peerPublic.value
  let localAddress ← runtime.localSocket id transport
  require (runtime.derives session.role localKey transcript = true) .invalid
  pure
    { transport := transport
      role := session.role
      localKey := localKey
      transcript := transcript
      localAddress := localAddress
      remote := peerCandidate.address
      socket := if transport = .quicUdp then session.quicSocket else none
      punch := if transport = .quicUdp ∧ session.quicSocket = none then none else session.punchGrant }

/-- The socket and the grant an attempt needs: a bound socket is taken with the
session's grant, and plain TCP cannot do without a grant. -/
def attemptReady (attempt : DirectAttempt) : Except IoError Unit :=
  match attempt.transport, attempt.socket with
  | .quicUdp, none => .ok ()
  | .quicUdp, some socket => do
      let _ ← okOr attempt.punch .invalid
      require (runtime.adoptsSocket socket = true) .invalid
  | _, _ => do
      let _ ← okOr attempt.punch .invalid
      pure ()

def setDirectStarted (session : Session) : Session := { session with directStarted := true }

def takeRecheckReply (session : Session) : Session := { session with recheckReply := none }

def setDirectAttempt (attempt : Option (Stamped DirectAttempt)) (session : Session) : Session :=
  { session with directAttempt := attempt }

/-- The prepared attempt answers a waiting recheck or is kept. -/
def offerAttempt (id : SessionId) (attempt : DirectAttempt) : Act Unit := do
  editSession id setDirectStarted
  let session ← getSession id
  match session.recheckReply with
  | some reply => do
      editSession id takeRecheckReply
      emit (.rechecked reply (.ok attempt))
  | none => editSession id (setDirectAttempt (some ⟨attempt, session.epoch⟩))

def prepareDirect (id : SessionId) (session : Session) (peerCandidate : Candidate) : Act Unit := do
  let transport := directTransport session
  let localKey ← .read fun _ => okOr (session.localEphemerals.lookup transport) .invalid
  editSession id (removeLocalEphemeral transport)
  let attempt ← .read fun s => directAttempt runtime s id session transport localKey.value peerCandidate
  if attempt.socket.isSome then editSession id takeQuicSocket else pure ()
  .read fun _ => attemptReady runtime attempt
  offerAttempt id attempt

def ensureDirect (id : SessionId) : Act Unit := do
  let session ← getSession id
  let p2p ← .read fun _ => okOr runtime.p2p .invalid
  if directDue runtime p2p session = false then pure ()
  else
    match bestCandidate session.peerCandidates (directTransport session) with
    | none => pure ()
    | some peerCandidate => prepareDirect runtime id session peerCandidate

end Direct

section Relay

def workerReady (session : Session) : Bool :=
  session.worker.isNone && session.localRelayRequested && session.peerRelayRequested && session.peerKey.isSome &&
    (session.peerEphemeralPublic.lookup .relay).isSome

def relayWorker (s : Actor) (id : SessionId) (session : Session) (localKey : EphemeralPeerKey) :
    Except IoError RelayWorker := do
  let peerPublic ← okOr (session.peerEphemeralPublic.lookup .relay) .invalid
  let peerIdentity ← okOr session.peerKey .invalid
  let localPublic ← okOr (session.localEphemeralPublic.lookup .relay) .invalid
  let transcript ← peerTranscript runtime s id session .relay peerIdentity localPublic.value peerPublic.value
  require (runtime.derives session.role localKey transcript = true) .invalid
  pure
    { role := session.role
      protocol := session.protocol.getD .tcp
      localKey := localKey
      transcript := transcript
      controlGeneration := s.generation }

def setWorker (worker : RelayWorker) (session : Session) : Session := { session with worker := some worker }

/-- The worker is set before the protocol is looked at, so a session without a
protocol keeps one that never runs. -/
def startWorker (id : SessionId) (session : Session) : Act Unit := do
  let localKey ← .read fun _ => okOr (session.localEphemerals.lookup .relay) .invalid
  editSession id (removeLocalEphemeral .relay)
  let worker ← .read fun s => relayWorker runtime s id session localKey.value
  editSession id (setWorker worker)
  .read fun _ => require (session.protocol ≠ none) .invalid
  emit (.relaying id worker)

def ensureWorker (id : SessionId) : Act Unit := do
  let found ← .read fun s => .ok (s.sessions.lookup id)
  match found with
  | none => pure ()
  | some session => if workerReady session = false then pure () else startWorker runtime id session

/-- Whether it is this side's turn to ask for the relay. -/
def relayRequestDue (session : Session) : Bool :=
  (runtime.p2p.any P2pConfig.allowRelayFallback) && !session.localRelayRequested &&
    (session.peerEphemeralPublic.lookup .relay).isSome && session.protocol.isSome &&
    (session.role = .responder || session.peerRelayRequested)

def setLocalRelayRequested (session : Session) : Session := { session with localRelayRequested := true }

def ensureRelayRequest (id : SessionId) : Act Unit := do
  let session ← getSession id
  if relayRequestDue runtime session = false then pure ()
  else do
    sendPayload runtime id (.relayRequest ⟨session.protocol = some .udp⟩)
    editSession id setLocalRelayRequested
    ensureWorker runtime id

end Relay

section Apply

/-- What both ends do alike when a session enters its next generation. -/
def newGeneration (generation : CandidateGeneration) (epoch : Nat) (session : Session) : Session :=
  { session with
    generation := generation
    epoch := epoch
    localEphemerals := runtime.freshTransportKeys epoch
    localEphemeralPublic := runtime.freshTransportPublics epoch
    peerEphemeralPublic := ∅
    peerCandidates := []
    directStarted := false
    quicSocket := none
    observedUdp := []
    punchGrant := none
    localCandidatesDigest := none
    peerCandidatesDigest := none }

/-- The reset of `begin_recheck`: the prepared attempt goes, the cached address stays. -/
def advanceInitiator (generation : CandidateGeneration) (reply : Nat) (epoch : Nat) (session : Session) : Session :=
  { newGeneration runtime generation epoch session with
    directAttempt := none
    recheckReply := some reply }

/-- The reset of `apply_verified`: the cached address goes, the prepared attempt stays. -/
def advanceResponder (generation : CandidateGeneration) (epoch : Nat) (session : Session) : Session :=
  { newGeneration runtime generation epoch session with cachedTcpObservedIp := none }

/-- Enters a generation: it gets the next number. -/
def enterGeneration (id : SessionId) (f : Nat → Session → Session) : Act Unit := do
  let epoch ← .read fun s => .ok (s.epochs + 1)
  .update fun s => { s with epochs := s.epochs + 1 }
  editSession id (f epoch)

def isCandidateSetV2 : RendezvousPayload → Bool
  | .candidateSetV2 _ => true
  | _ => false

/-- An envelope of another generation is taken only as the candidate set that opens the next one. -/
def acceptGeneration (envelope : RendezvousEnvelope) : Act Unit := do
  let session ← getSession envelope.sessionId
  if envelope.generation = session.generation then pure ()
  else do
    .read fun _ => require (isCandidateSetV2 envelope.payload = true ∧
      envelope.generation.value = saturatingAdd session.generation.value 1) .invalid
    enterGeneration envelope.sessionId (advanceResponder runtime envelope.generation)
    requestObservation runtime envelope.sessionId

def providerAccepted (session : Session) : Session := { session with providerDecisionAccepted := true }

def providerAccept (id : SessionId) : Act Unit := do
  let session ← getSession id
  match session.protocol with
  | some protocol => do
      sendPayload runtime id (.providerDecision (.accepted protocol.toWire))
      editSession id providerAccepted
      sendCandidates runtime id
  | none => sendPayload runtime id (.providerDecision (.rejected none))

def setProtocol (protocol : ConfigTunnelProtocol) (session : Session) : Session :=
  { session with
    protocol := some protocol
    providerDecisionAccepted := true }

/-- A session that was opened only to learn the protocol is answered and closed. -/
def resolveProtocol (id : SessionId) (protocol : ConfigTunnelProtocol) : Act Unit := do
  let session ← getSession id
  editSession id takeReply
  answer session.reply (.ok (.protocol protocol))
  let envelope ← .read fun s =>
    signedEnvelope runtime s id session.peer (UInt64.ofNat (2 ^ 64 - 2)) session.expiry (.close ⟨none⟩)
  .ignoring (sendEnvelope envelope)
  failSession id .closed

def applyDecision (id : SessionId) (decision : ProviderDecision) : Act Unit :=
  match decision.protocol with
  | none => failSession id .exportRejected
  | some wire => do
      let protocol := ConfigTunnelProtocol.fromWire wire
      let session ← getSession id
      editSession id (setProtocol protocol)
      if session.resolveOnly then resolveProtocol runtime id protocol else pure ()

def setPeerEphemeral (transport : CandidateTransport) (key : FromPeer (Vector UInt8 32)) (session : Session) :
    Session := { session with peerEphemeralPublic := session.peerEphemeralPublic.insert transport key }

def setPeerCandidates (candidates : List (FromPeer Candidate)) (session : Session) : Session :=
  { session with peerCandidates := candidates }

def setPeerDigest (digest : FromPeer (Vector UInt8 32)) (session : Session) : Session :=
  { session with peerCandidatesDigest := some digest }

def applyCandidateSet (id : SessionId) (generation : CandidateGeneration) (set : CandidateSet) : Act Unit := do
  let key ← .read fun _ => okOr (keyBytes set.ephemeralPublicKey.bytes) .invalid
  editSession id (setPeerEphemeral .relay ⟨key, generation⟩)
  editSession id (setPeerCandidates (set.candidates.items.map (⟨·, generation⟩)))
  let session ← getSession id
  if session.role = .initiator then sendCandidates runtime id else pure ()
  ensureDirect runtime id
  ensureRelayRequest runtime id

/-- A transport bound twice is an error, with the second key in place. -/
def bindTransports (id : SessionId) (generation : CandidateGeneration) : List TransportKeyBinding → Act Unit
  | [] => pure ()
  | binding :: rest => do
      let key ← .read fun _ => okOr (keyBytes binding.ephemeralPublicKey.bytes) .invalid
      let session ← getSession id
      editSession id (setPeerEphemeral binding.transport ⟨key, generation⟩)
      .read fun _ => require (session.peerEphemeralPublic.lookup binding.transport = none) .invalid
      bindTransports id generation rest

def applyCandidateSetV2 (id : SessionId) (generation : CandidateGeneration) (set : CandidateSetV2) : Act Unit := do
  let session ← getSession id
  .read fun _ => require (set.ownerIsInitiator = decide (session.role = .responder)) .invalid
  bindTransports id generation set.bindings.items
  editSession id (setPeerCandidates (set.candidates.items.map (⟨·, generation⟩)))
  editSession id (setPeerDigest ⟨candidateSetDigest runtime set, generation⟩)
  let session ← getSession id
  if session.candidateSentGeneration < session.generation.value then sendCandidates runtime id else pure ()
  ensureDirect runtime id
  ensureRelayRequest runtime id

def setPeerRelayRequested (session : Session) : Session := { session with peerRelayRequested := true }

def applyRelayRequest (id : SessionId) : Act Unit := do
  editSession id setPeerRelayRequested
  ensureRelayRequest runtime id
  ensureWorker runtime id

def applyPayload (id : SessionId) (generation : CandidateGeneration) : RendezvousPayload → Act Unit
  | .request _ => providerAccept runtime id
  | .providerDecision decision => applyDecision runtime id decision
  | .candidateSet set => applyCandidateSet runtime id generation set
  | .candidateSetV2 set => applyCandidateSetV2 runtime id generation set
  | .relayRequest _ => applyRelayRequest runtime id
  | .close _ | .error _ => failSession id .closed
  | .connectivityResult _ => pure ()

def raiseNextStep (step : UInt64) (session : Session) : Session :=
  { session with nextStep := max session.nextStep (saturatingAdd step 1) }

/-- An envelope that passes the check of its generation is applied. -/
def applyVerified (envelope : RendezvousEnvelope) : Act Unit := do
  acceptGeneration runtime envelope
  editSession envelope.sessionId (raiseNextStep envelope.step)
  noteApplied envelope
  applyPayload runtime envelope.sessionId envelope.generation envelope.payload

end Apply

section Envelope

/-- The checks of `handle_envelope` on an envelope of a known session. -/
def verified (session : Session) (envelope : RendezvousEnvelope) : Bool :=
  (session.peerKey.any fun key => runtime.verify key envelope) && envelope.sender.str = session.peer &&
    envelope.target.str = runtime.name && envelope.expiresUnixSecs = session.expiry

def exportProtocol (peer exportName : String) : Option ConfigTunnelProtocol :=
  if runtime.authorize peer exportName .tcp then some .tcp
  else if runtime.authorize peer exportName .udp then some .udp
  else none

/-- What a session starts with, whichever end opens it. -/
def freshSession (s : Actor) (epoch : Nat) (peer exportName : String) (role : PeerRole) (expiry : UInt64) : Session where
  authorityGeneration := s.generation
  peer := peer
  exportName := exportName
  role := role
  expiry := expiry
  protocol := none
  providerDecisionAccepted := false
  nextStep := 2
  localEphemerals := runtime.freshTransportKeys epoch
  localEphemeralPublic := runtime.freshTransportPublics epoch
  peerEphemeralPublic := ∅
  peerKey := none
  bindingRequested := false
  peerRelayRequested := false
  localRelayRequested := false
  worker := none
  reply := none
  cancelled := false
  resolveOnly := false
  pending := []
  peerCandidates := []
  directStarted := false
  generation := .INITIAL
  epoch := epoch
  directAttempt := none
  recheckReply := none
  manager := false
  relayReady := false
  candidateSentGeneration := 0
  quicSocket := none
  observedUdp := []
  cachedTcpObservedIp := none
  punchGrant := none
  localCandidatesDigest := none
  peerCandidatesDigest := none
  selectedKind := none

def responderSession (s : Actor) (epoch : Nat) (envelope : RendezvousEnvelope) (request : RendezvousRequest) : Session :=
  { freshSession runtime s epoch envelope.sender.str request.exportName.str .responder envelope.expiresUnixSecs with
    protocol := exportProtocol runtime envelope.sender.str request.exportName.str
    nextStep := envelope.step + 1
    bindingRequested := true
    pending := [envelope] }

def initiatorSession (s : Actor) (epoch : Nat) (peer exportName : String) (expiry : UInt64) (resolveOnly : Bool)
    (reply : Nat) : Session :=
  { freshSession runtime s epoch peer exportName .initiator expiry with
    reply := some reply
    resolveOnly := resolveOnly }

/-- A new session takes the next number for its first generation. -/
def insertSession (id : SessionId) (session : Actor → Nat → Session) : Act Unit :=
  .update fun s => { s.put id (session s (s.epochs + 1)) with epochs := s.epochs + 1 }

def openResponder (envelope : RendezvousEnvelope) (request : RendezvousRequest) : Act Unit := do
  insertSession envelope.sessionId fun s epoch => responderSession runtime s epoch envelope request
  requestObservation runtime envelope.sessionId
  lookupIdentity envelope.sessionId

def pushPending (envelope : RendezvousEnvelope) (session : Session) : Session :=
  { session with pending := session.pending ++ [envelope] }

def setBindingRequested (session : Session) : Session := { session with bindingRequested := true }

def bufferEnvelope (envelope : RendezvousEnvelope) : Act Unit := do
  editSession envelope.sessionId (pushPending envelope)
  let session ← getSession envelope.sessionId
  if session.bindingRequested then pure ()
  else do
    editSession envelope.sessionId setBindingRequested
    lookupIdentity envelope.sessionId

def handleEnvelope (now : Moment) (envelope : RendezvousEnvelope) : Act Unit := do
  .read fun _ => require (now.unixSecs < envelope.expiresUnixSecs) .invalid
  let found ← .read fun s => .ok (s.sessions.lookup envelope.sessionId)
  match found with
  | none =>
      match envelope.payload.asRequest with
      | none => pure ()
      | some request => openResponder runtime envelope request
  | some session =>
      if verified runtime session envelope then applyVerified runtime envelope else bufferEnvelope envelope

end Envelope

section Binding

def setPeerKey (key : DevicePublicKey) (session : Session) : Session := { session with peerKey := some key }

def clearPending (session : Session) : Session := { session with pending := [] }

/-- The buffered envelopes are verified and applied in order, up to the first failure. -/
def applyPending (id : SessionId) : List RendezvousEnvelope → Act Unit
  | [] => pure ()
  | envelope :: rest => do
      let session ← getSession id
      let key ← .read fun _ => okOr session.peerKey .invalid
      .read fun _ => require (runtime.verify key envelope = true) .invalid
      .read fun _ => require (envelope.sender.str = session.peer ∧ envelope.target.str = runtime.name) .invalid
      applyVerified runtime envelope
      let present ← .read fun s => .ok (s.sessions.lookup id).isSome
      if present then applyPending id rest else pure ()

/-- The checks of `handle_binding` before it touches the session. -/
def bindingKey (session : Session) (binding : PeerIdentityBinding) : Except IoError DevicePublicKey := do
  require (binding.peer.str = session.peer ∧ binding.expiresUnixSecs = session.expiry) .invalid
  require (binding.peerIsProvider = decide (session.role = .initiator)) .invalid
  okOr (runtime.parseKey binding.publicKey.str) .invalid

def handleBinding (binding : PeerIdentityBinding) : Act Unit := do
  let id : SessionId := ⟨binding.sessionId⟩
  let session ← getSession id
  let key ← .read fun _ => bindingKey runtime session binding
  editSession id (setPeerKey key)
  .read fun _ => require (session.peerKey = none) .invalid
  editSession id clearPending
  applyPending runtime id session.pending

end Binding

end Rustgo.Orchestration
