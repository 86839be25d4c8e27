import Rustgo.CoordinatorRoutes

namespace Rustgo.Coordinator

open Checks Protocol Registry Rendezvous Tables

namespace RendezvousCoordinator

variable (c : RendezvousCoordinator)

/-- What `request` has found out when it starts to write. -/
structure RequestPlan where
  request : RendezvousRequest
  state : RendezvousState
  consumer : SessionOwner
  provider : SessionOwner
  message : Message
  permit : Permit

def requestPlan (s : Server) (now : Moment) (authenticated : ControlSessionGuard) (envelope : RendezvousEnvelope) :
    Except RendezvousErrorCode RequestPlan := do
  validateOrigin s now authenticated envelope
  let request ← okOr envelope.payload.asRequest .invalidState
  require (envelope.target ≠ authenticated.identity.name) .selfTarget
  let entry ← okOr (c.directory.lookup envelope.target) .unknownPeer
  require (entry.enabled = true) .peerDisabled
  let active ← okOr (s.registry.activeControlSession envelope.target) .peerOffline
  require (supportsV02 active.protocolVersion) .unsupportedPeerVersion
  require (now.unixSecs < envelope.expiresUnixSecs) .expired
  let maxExpiry ← okOr (checkedAdd now.unixSecs c.limits.sessionTtlSecs) .invalidExpiry
  require (envelope.expiresUnixSecs ≤ maxExpiry) .invalidExpiry
  let state ← orFail ((RendezvousState.new envelope.sessionId).request envelope.step envelope.generation) .invalidState
  let consumer := SessionOwner.fromControl authenticated
  let provider := SessionOwner.fromActive active
  let message ← orFail envelope.toProtocolMessage .invalidState
  require (envelope.sessionId ∉ s.state.sessions) .duplicateSession
  require (len s.state.sessions < c.limits.maxSessions ∧
    (s.state.deviceCounts.lookup consumer.name).getD 0 < c.limits.maxSessionsPerDevice ∧
    (s.state.deviceCounts.lookup provider.name).getD 0 < c.limits.maxSessionsPerDevice) .capacityReached
  let permit ← reserveTo s.registry provider
  pure { request, state, consumer, provider, message, permit }

def newSession (r : ClientRegistry) (now : Moment) (envelope : RendezvousEnvelope) (plan : RequestPlan) :
    StoredSession where
  metadata := ⟨envelope.sessionId, plan.consumer.name, plan.provider.name, plan.request.exportName, none,
    envelope.expiresUnixSecs⟩
  consumer := plan.consumer
  provider := plan.provider
  state := plan.state
  relay := .new now
  candidateGenerationAnnouncedBy := 0
  candidateDigests := (none, none)
  generationStarted := now.instant
  observedPath := none
  fallbackConsumerInternalFramesRemaining := if r.observabilityEnabled then 1 else 0
  fallbackProviderInternalFramesRemaining := if r.observabilityEnabled then 2 else 0
  pendingPreselectionRelayTraffic := .default
  pendingRelayTraffic := .default
  lastObservabilityFlush := now.instant

def openSession (s : CoordinatorState) (session : StoredSession) : CoordinatorState where
  deviceCounts := CoordinatorState.incrementDeviceCount
    (CoordinatorState.incrementDeviceCount s.deviceCounts session.consumer.name) session.provider.name
  expiry := s.expiry.push ⟨session.metadata.expiresUnixSecs, session.metadata.sessionId⟩
  sessions := s.sessions.insert session.metadata.sessionId (.active session)

def request (now : Moment) (authenticated : ControlSessionGuard) (envelope : RendezvousEnvelope) : Op SessionId := do
  let plan ← .read fun s => c.requestPlan s now authenticated envelope
  .update fun s => { s with state := openSession s.state (newSession s.registry now envelope plan) }
  plan.permit.send plan.message
  note envelope.sessionId fun k => .forwarded ⟨k + 1, envelope, authenticated.identity, plan.permit.identity, now⟩
  pure envelope.sessionId

structure DecisionPlan where
  decision : ProviderDecision
  session : StoredSession
  next : RendezvousState
  message : Message

def decisionPlan (s : Server) (now : Moment) (authenticated : ControlSessionGuard) (envelope : RendezvousEnvelope) :
    Except RendezvousErrorCode DecisionPlan := do
  validateOrigin s now authenticated envelope
  let decision ← okOr envelope.payload.asProviderDecision .invalidState
  let message ← orFail envelope.toProtocolMessage .invalidState
  let session ← okOr (s.state.activeSession envelope.sessionId) .unknownSession
  require (now.unixSecs < session.metadata.expiresUnixSecs) .expired
  require (session.provider.Matches authenticated.identity) .notParticipant
  require (envelope.target = session.consumer.name) .identityMismatch
  let next ← orFail (session.state.providerDecision envelope.step envelope.generation decision.isAccepted) .invalidState
  pure { decision, session, next, message }

/-- The session once the provider has decided. -/
def decidedSession (plan : DecisionPlan) : StoredSession :=
  let session := { plan.session with state := plan.next }
  if plan.decision.isAccepted then
    { session with metadata := { session.metadata with protocol := plan.decision.protocol } }
  else session

def providerDecision (now : Moment) (authenticated : ControlSessionGuard) (envelope : RendezvousEnvelope) :
    Op Unit := do
  let plan ← .read fun s => decisionPlan s now authenticated envelope
  let permit ← .read fun s => reserveTo s.registry plan.session.consumer
  .update fun s => { s with state := s.state.putSession envelope.sessionId (decidedSession plan) }
  if plan.decision.isAccepted then pure ()
  else .update fun s => { s with state := (s.state.tombstoneSession envelope.sessionId).1 }
  permit.send plan.message
  note envelope.sessionId fun k => .forwarded ⟨k, envelope, authenticated.identity, permit.identity, now⟩
  if plan.decision.isAccepted then pure () else note envelope.sessionId (.tombstoned envelope.sessionId)

def candidateDigest (envelope : RendezvousEnvelope) : Option (Vector UInt8 32) :=
  match envelope.payload with
  | .candidateSetV2 set => some (c.sha256 (RendezvousFormat.candidateSetV2.write set))
  | _ => none

/-- The bit of the sender in the masks of a session. -/
def participantBit (session : StoredSession) (authenticated : AuthenticatedClient) : UInt8 :=
  if session.consumer.Matches authenticated then 1 else 2

/-- `announcedBy` is the new mask; `advanced` tells whether a new generation begins. -/
structure GenerationUpdate where
  generation : UInt64
  announcedBy : UInt8
  advanced : Bool

def generationPlan (session : StoredSession) (now : Moment) (participant : UInt8) (envelope : RendezvousEnvelope) :
    Except RendezvousErrorCode (RendezvousState × Option GenerationUpdate) :=
  match envelope.payload with
  | .candidateSetV2 set => do
      require (set.ownerIsInitiator = decide (participant = 1)) .invalidState
      let current := session.state.generation.value
      let actual := envelope.generation.value
      if actual = current then do
        require (session.candidateGenerationAnnouncedBy &&& participant = 0) .invalidState
        pure (session.state, some ⟨actual, session.candidateGenerationAnnouncedBy ||| participant, false⟩)
      else do
        require (actual = saturatingAdd current 1 ∧ session.candidateGenerationAnnouncedBy = 3 ∧ actual ≤ 32 ∧
          250 * millisecond ≤ now.instant - session.generationStarted) .invalidState
        let next ← orFail (session.state.advanceGeneration envelope.generation) .invalidState
        pure (next, some ⟨actual, participant, true⟩)
  | _ => pure (session.state, none)

def relayPlan (session : StoredSession) (participant : UInt8) (envelope : RendezvousEnvelope) :
    Except RendezvousErrorCode (Option (UInt8 × Bool)) :=
  match envelope.payload with
  | .relayRequest request => do
      require (request.datagram = decide (session.metadata.protocol = some .UDP)) .invalidState
      require (∀ value ∈ session.relay.datagram, value = request.datagram) .invalidState
      pure (some (participant, request.datagram))
  | _ => pure none

def reportedPath (r : ClientRegistry) (envelope : RendezvousEnvelope) :
    Except RendezvousErrorCode (Option SessionPath) :=
  match envelope.payload with
  | .connectivityResult result =>
      if result.connected then do
        let transport ← okOr result.transport .invalidState
        pure (if r.observabilityEnabled then
          some (if transport = .relay then SessionPath.p2pFallback else SessionPath.p2pDirect) else none)
      else do
        require (result.transport = none) .invalidState
        pure none
  | _ => pure none

def observedPathPlan (r : ClientRegistry) (session : StoredSession) (envelope : RendezvousEnvelope) :
    Except RendezvousErrorCode (Option SessionPath) := do
  let path ← reportedPath r envelope
  require (∀ p ∈ path, ∀ current ∈ session.observedPath, current = p) .invalidState
  pure path

structure ForwardPlan where
  session : StoredSession
  participant : UInt8
  target : SessionOwner
  next : RendezvousState
  relayUpdate : Option (UInt8 × Bool)
  generationUpdate : Option GenerationUpdate
  observedPath : Option SessionPath
  message : Message

def IsForwardable : RendezvousPayload → Prop
  | .request _ | .providerDecision _ | .close _ | .error _ => False
  | .candidateSet _ | .candidateSetV2 _ | .connectivityResult _ | .relayRequest _ => True

instance : DecidablePred IsForwardable
  | .request _ | .providerDecision _ | .close _ | .error _ => isFalse id
  | .candidateSet _ | .candidateSetV2 _ | .connectivityResult _ | .relayRequest _ => isTrue trivial

def forwardPlan (s : Server) (now : Moment) (authenticated : ControlSessionGuard) (envelope : RendezvousEnvelope) :
    Except RendezvousErrorCode ForwardPlan := do
  validateOrigin s now authenticated envelope
  require (IsForwardable envelope.payload) .invalidState
  let message ← orFail envelope.toProtocolMessage .invalidState
  let session ← okOr (s.state.activeSession envelope.sessionId) .unknownSession
  require (now.unixSecs < session.metadata.expiresUnixSecs) .expired
  require (session.metadata.protocol ≠ none) .invalidState
  let target ← otherParticipant session authenticated.identity envelope.target
  let participant := participantBit session authenticated.identity
  let (state, generationUpdate) ← generationPlan session now participant envelope
  let next ← orFail (state.acceptMetadata envelope.sessionId envelope.step envelope.generation
    envelope.expiresUnixSecs now.unixSecs) .invalidState
  let relayUpdate ← relayPlan session participant envelope
  let observedPath ← observedPathPlan s.registry session envelope
  pure { session, participant, target, next, relayUpdate, generationUpdate, observedPath, message }

def applyGeneration (session : StoredSession) (now : Moment) (update : Option GenerationUpdate) : StoredSession :=
  match update with
  | none => session
  | some update =>
      let session := { session with candidateGenerationAnnouncedBy := update.announcedBy }
      if update.advanced then { session with
        generationStarted := now.instant
        relay := if session.relay.Authorized then session.relay else .new now
        candidateDigests := (none, none) }
      else session

def applyDigest (session : StoredSession) (sender : DeviceName) (digest : Option (Vector UInt8 32)) : StoredSession :=
  match digest with
  | none => session
  | some digest => { session with
      candidateDigests :=
        if sender = session.consumer.name then (some digest, session.candidateDigests.2)
        else (session.candidateDigests.1, some digest) }

def applyRelay (session : StoredSession) (update : Option (UInt8 × Bool)) : StoredSession :=
  match update with
  | none => session
  | some (participant, datagram) => { session with
      relay := { session.relay with
        requestedBy := session.relay.requestedBy ||| participant
        datagram := some datagram } }

/-- Only the first reported path counts. -/
def applyPath (session : StoredSession) (now : Moment) (observedPath : Option SessionPath) :
    StoredSession × List ObservationEvent :=
  match observedPath, session.observedPath with
  | some path, none =>
      let session := { session with observedPath := some path }
      let pending := session.pendingPreselectionRelayTraffic
      let session := { session with pendingPreselectionRelayTraffic := .default }
      (session, observeP2pOpen c session path now ::
        if path = .p2pFallback then (p2pTrafficEvent c session pending).toList else [])
  | _, _ => (session, [])

def punchGrant (session : StoredSession) (now : Moment) (envelope : RendezvousEnvelope)
    (digest : Option (Vector UInt8 32)) (token : Vector UInt8 32) : Option PunchGrant :=
  if digest.isSome ∧ session.candidateGenerationAnnouncedBy = 3 then
    match session.candidateDigests with
    | (some initiator, some responder) => some {
        sessionId := envelope.sessionId.bytes
        generation := envelope.generation.value
        startUnixMillis := saturatingAdd now.unixMillis 250
        windowMillis := 150
        cadenceMillis := 25
        initiatorCandidatesSha256 := initiator
        responderCandidatesSha256 := responder
        token }
    | _ => none
  else none

/-- The session with the candidates of the envelope, before relay and path are noted. -/
def announcedSession (now : Moment) (authenticated : ControlSessionGuard) (envelope : RendezvousEnvelope)
    (plan : ForwardPlan) : StoredSession :=
  applyDigest (applyGeneration { plan.session with state := plan.next } now plan.generationUpdate)
    authenticated.identity.name (c.candidateDigest envelope)

def sendGrant (session : StoredSession) (grant : Option PunchGrant) : Op Unit :=
  match grant with
  | none => pure ()
  | some grant => do
      let consumerPermit ← .read fun s => reserveTo s.registry session.consumer
      let providerPermit ← .read fun s => reserveTo s.registry session.provider
      consumerPermit.send (.punchGrant grant)
      providerPermit.send (.punchGrant grant)

/-- `token` is the random token of the grant. -/
def forwardEnvelope (now : Moment) (token : Vector UInt8 32) (authenticated : ControlSessionGuard)
    (envelope : RendezvousEnvelope) : Op Unit := do
  let plan ← .read fun s => forwardPlan s now authenticated envelope
  let permit ← .read fun s => reserveTo s.registry plan.target
  let announced := c.announcedSession now authenticated envelope plan
  let punch := punchGrant announced now envelope (c.candidateDigest envelope) token
  let (session, events) := c.applyPath (applyRelay announced plan.relayUpdate) now plan.observedPath
  .update fun s => { s with state := s.state.putSession envelope.sessionId session }
  .update fun s => { s with registry := tryObserveAll s.registry events }
  permit.send plan.message
  note envelope.sessionId fun k => .forwarded ⟨k, envelope, authenticated.identity, permit.identity, now⟩
  sendGrant session punch

structure ClosePlan where
  session : StoredSession
  target : SessionOwner
  next : RendezvousState
  message : Message

def IsClosing : RendezvousPayload → Prop
  | .close _ | .error _ => True
  | .request _ | .providerDecision _ | .candidateSet _ | .candidateSetV2 _ | .connectivityResult _
  | .relayRequest _ => False

instance : DecidablePred IsClosing
  | .close _ | .error _ => isTrue trivial
  | .request _ | .providerDecision _ | .candidateSet _ | .candidateSetV2 _ | .connectivityResult _
  | .relayRequest _ => isFalse id

def closePlan (s : Server) (now : Moment) (authenticated : ControlSessionGuard) (envelope : RendezvousEnvelope) :
    Except RendezvousErrorCode ClosePlan := do
  validateOrigin s now authenticated envelope
  require (IsClosing envelope.payload) .invalidState
  let message ← orFail envelope.toProtocolMessage .invalidState
  let session ← okOr (s.state.activeSession envelope.sessionId) .unknownSession
  require (now.unixSecs < session.metadata.expiresUnixSecs) .expired
  let target ← otherParticipant session authenticated.identity envelope.target
  let next ← orFail (session.state.acceptMetadata envelope.sessionId envelope.step envelope.generation
    envelope.expiresUnixSecs now.unixSecs) .invalidState
  pure { session, target, next, message }

def closeSession (now : Moment) (authenticated : ControlSessionGuard) (envelope : RendezvousEnvelope) : Op Unit := do
  let plan ← .read fun s => closePlan s now authenticated envelope
  let permit ← .read fun s => reserveTo s.registry plan.target
  .update fun s => { s with state := s.state.putSession envelope.sessionId { plan.session with state := plan.next } }
  .update fun s =>
    let (state, removed) := s.state.tombstoneSession envelope.sessionId
    { s with
      state
      registry := removed.elim s.registry fun session => observeP2pClose c s.registry session "closed" now }
  permit.send plan.message
  note envelope.sessionId fun k => .forwarded ⟨k, envelope, authenticated.identity, permit.identity, now⟩
  note envelope.sessionId (.tombstoned envelope.sessionId)

end RendezvousCoordinator

end Rustgo.Coordinator
