import Rustgo.CoordinatorCalls
import Rustgo.CoordinatorUpkeep

namespace Rustgo.Coordinator

open Checks Protocol Registry Rendezvous Tables RendezvousCoordinator

/-- The owner as an identity. -/
def SessionOwner.identity (owner : SessionOwner) : AuthenticatedClient :=
  ⟨owner.name, owner.fingerprint, owner.controlSessionId⟩

variable {c : RendezvousCoordinator} {s : Server} {now : Moment} {authenticated : ControlSessionGuard}
  {envelope : RendezvousEnvelope} {frame : PeerRelayFrame} {r : ClientRegistry} {owner : SessionOwner}
  {session : StoredSession} {identity : AuthenticatedClient}

theorem SessionOwner.matches_iff : owner.Matches identity ↔ owner.identity = identity := by
  cases identity
  simp only [SessionOwner.Matches, SessionOwner.identity, AuthenticatedClient.mk.injEq]

/-- The control session of the owner is there and its queue has room. -/
def Routable (r : ClientRegistry) (owner : SessionOwner) : Prop :=
  ∃ runtime, r.byName.lookup owner.name = some runtime ∧ runtime.available = true ∧
    runtime.identity = owner.identity ∧ runtime.outbound.HasRoom

theorem reserveTo_eq_ok {permit : Permit} :
    reserveTo r owner = .ok permit ↔ Routable r owner ∧ permit.identity = owner.identity := by
  simp only [reserveTo, activeRoute, bind_eq_ok, okOr_eq_ok, require_eq_ok, pure_eq_ok, exists_const,
    SessionOwner.matches_iff]
  constructor
  · rintro ⟨active, ⟨active', ha, hm, rfl⟩, hroom, rfl⟩
    obtain ⟨runtime, hr, hav, rfl⟩ := ClientRegistry.activeControlSession_eq_some ha
    exact ⟨⟨runtime, hr, hav, hm.symm, hroom⟩, hm.symm⟩
  · rintro ⟨⟨runtime, hr, hav, hm, hroom⟩, hp⟩
    refine ⟨_, ⟨_, ClientRegistry.activeControlSession_of_lookup hr hav, hm.symm, rfl⟩, hroom, ?_⟩
    cases permit
    exact congrArg Permit.mk (hm.trans hp.symm)

theorem validateOrigin_eq_ok {u : Unit} : validateOrigin s now authenticated envelope = .ok u ↔
    (s.registry.isActiveSession authenticated.identity = true ∧ envelope.sender = authenticated.identity.name ∧
      envelope.version = authenticated.protocolVersion) ∧ supportsV02 envelope.version ∧
      now.unixSecs < envelope.expiresUnixSecs := by
  simp only [validateOrigin, bind_eq_ok, require_eq_ok, exists_const]

/-- The sender is one participant, and the target the other. -/
def Between (session : StoredSession) (sender : AuthenticatedClient) (target : SessionOwner) : Prop :=
  (session.consumer.Matches sender ∧ target = session.provider) ∨
    (¬session.consumer.Matches sender ∧ session.provider.Matches sender ∧ target = session.consumer)

theorem opposite_eq_ok {target : SessionOwner} :
    opposite session identity = .ok target ↔ Between session identity target := by
  rw [opposite, Between]
  split
  · next hc => simp [hc, eq_comm]
  · next hc =>
    split
    · next hp => simp [hc, hp, eq_comm]
    · next hp => simp [hc, hp]

theorem otherParticipant_eq_ok {target : SessionOwner} {claimed : DeviceName} :
    otherParticipant session identity claimed = .ok target ↔
      Between session identity target ∧ target.name = claimed := by
  simp only [otherParticipant, bind_eq_ok, opposite_eq_ok, require_eq_ok, pure_eq_ok, exists_const]
  constructor
  · rintro ⟨target', hb, hn, rfl⟩
    exact ⟨hb, hn⟩
  · rintro ⟨hb, hn⟩
    exact ⟨target, hb, hn, rfl⟩

theorem participantBit_eq_one_iff : participantBit session identity = 1 ↔ session.consumer.Matches identity := by
  rw [participantBit]
  split
  · next h => simp [h]
  · next h => simpa using h

theorem not_isClosing {payload : RendezvousPayload} (h : IsForwardable payload) : ¬IsClosing payload := by
  cases payload with
  | request | providerDecision | close | error => exact absurd h id
  | candidateSet | candidateSetV2 | connectivityResult | relayRequest => exact id

theorem asRequest_eq_some {payload : RendezvousPayload} {value : RendezvousRequest} :
    payload.asRequest = some value ↔ payload = .request value := by
  cases payload <;> simp [RendezvousPayload.asRequest]

theorem asProviderDecision_eq_some {payload : RendezvousPayload} {value : ProviderDecision} :
    payload.asProviderDecision = some value ↔ payload = .providerDecision value := by
  cases payload <;> simp [RendezvousPayload.asProviderDecision]

/-- What `request` has checked before it writes. -/
structure Requested (c : RendezvousCoordinator) (s : Server) (now : Moment) (authenticated : ControlSessionGuard)
    (envelope : RendezvousEnvelope) (plan : RequestPlan) : Prop where
  timely : now.unixSecs < envelope.expiresUnixSecs
  payload : envelope.payload = .request plan.request
  other : envelope.target ≠ authenticated.identity.name
  active : ∃ active, s.registry.activeControlSession envelope.target = some active ∧
    plan.provider = .fromActive active
  consumer : plan.consumer = .fromControl authenticated
  state : plan.state = ⟨envelope.sessionId, .requested, envelope.step, envelope.generation⟩
  absent : envelope.sessionId ∉ s.state.sessions
  room : len s.state.sessions < c.limits.maxSessions ∧
    (s.state.deviceCounts.lookup plan.consumer.name).getD 0 < c.limits.maxSessionsPerDevice ∧
    (s.state.deviceCounts.lookup plan.provider.name).getD 0 < c.limits.maxSessionsPerDevice
  permit : plan.permit.identity = plan.provider.identity

theorem requestPlan_eq_ok {plan : RequestPlan} (h : c.requestPlan s now authenticated envelope = .ok plan) :
    Requested c s now authenticated envelope plan := by
  simp only [requestPlan, bind_eq_ok, validateOrigin_eq_ok, require_eq_ok, okOr_eq_ok, orFail_eq_ok, pure_eq_ok,
    exists_const, asRequest_eq_some] at h
  obtain ⟨⟨_, _, htimely⟩, request, hpayload, hother, _, _, _, active, hactive, _, _, _, _, _, state, hstate, _, _,
    habsent, hroom, permit, hpermit, rfl⟩ := h
  exact {
    timely := htimely
    payload := hpayload
    other := hother
    active := ⟨active, hactive, rfl⟩
    consumer := rfl
    state := (RendezvousState.request_eq_ok hstate).2.2
    absent := habsent
    room := hroom
    permit := (reserveTo_eq_ok.mp hpermit).2 }

/-- A request that passes every check is planned. -/
theorem requestPlan_of_checks {request : RendezvousRequest} {entry : DirectoryEntry} {active : ActiveControlSession}
    {maxExpiry : UInt64} {permit : Permit} (horigin : validateOrigin s now authenticated envelope = .ok ())
    (hpayload : envelope.payload = .request request) (hother : envelope.target ≠ authenticated.identity.name)
    (hentry : c.directory.lookup envelope.target = some entry) (henabled : entry.enabled = true)
    (hactive : s.registry.activeControlSession envelope.target = some active)
    (hversion : supportsV02 active.protocolVersion)
    (hmax : checkedAdd now.unixSecs c.limits.sessionTtlSecs = some maxExpiry)
    (hexpiry : envelope.expiresUnixSecs ≤ maxExpiry) (hstep : 0 < envelope.step)
    (habsent : envelope.sessionId ∉ s.state.sessions)
    (hroom : len s.state.sessions < c.limits.maxSessions ∧
      (s.state.deviceCounts.lookup (SessionOwner.fromControl authenticated).name).getD 0 <
        c.limits.maxSessionsPerDevice ∧
      (s.state.deviceCounts.lookup (SessionOwner.fromActive active).name).getD 0 < c.limits.maxSessionsPerDevice)
    (hpermit : reserveTo s.registry (.fromActive active) = .ok permit) :
    ∃ message, c.requestPlan s now authenticated envelope = .ok {
      request
      state := ⟨envelope.sessionId, .requested, envelope.step, envelope.generation⟩
      consumer := .fromControl authenticated
      provider := .fromActive active
      message
      permit } := by
  obtain ⟨message, hmessage⟩ := toProtocolMessage_eq_ok envelope
  have htimely := (validateOrigin_eq_ok.mp horigin).2.2
  have hstate : (RendezvousState.new envelope.sessionId).request envelope.step envelope.generation =
      .ok ⟨envelope.sessionId, .requested, envelope.step, envelope.generation⟩ := by
    have hnew : (RendezvousState.new envelope.sessionId).lastStep < envelope.step := hstep
    simp only [RendezvousState.request, RendezvousState.acceptStep, require_of hnew]
    rfl
  refine ⟨message, ?_⟩
  simp only [requestPlan, horigin, hpayload, RendezvousPayload.asRequest, hentry, hactive, hmax, hstate, hmessage,
    hpermit, okOr, orFail, ok_bind, require_of hother, require_of henabled, require_of hversion, require_of htimely,
    require_of hexpiry, require_of habsent, require_of hroom]
  rfl

structure Decided (s : Server) (now : Moment) (authenticated : ControlSessionGuard) (envelope : RendezvousEnvelope)
    (plan : DecisionPlan) : Prop where
  payload : envelope.payload = .providerDecision plan.decision
  session : s.state.activeSession envelope.sessionId = some plan.session
  timely : now.unixSecs < plan.session.metadata.expiresUnixSecs
  sender : plan.session.provider.Matches authenticated.identity
  phase : plan.session.state.phase = .requested
  step : plan.session.state.lastStep < envelope.step
  generation : envelope.generation = plan.session.state.generation
  next : plan.next = { plan.session.state with
    lastStep := envelope.step
    phase := if plan.decision.isAccepted then .accepted else .closed }

theorem decisionPlan_eq_ok {plan : DecisionPlan} (h : decisionPlan s now authenticated envelope = .ok plan) :
    Decided s now authenticated envelope plan := by
  simp only [decisionPlan, bind_eq_ok, validateOrigin_eq_ok, require_eq_ok, okOr_eq_ok, orFail_eq_ok, pure_eq_ok,
    exists_const, asProviderDecision_eq_some] at h
  obtain ⟨_, decision, hpayload, _, _, session, hsession, htimely, hsender, _, next, hnext, rfl⟩ := h
  obtain ⟨hphase, hstep, hgeneration, hstate⟩ := RendezvousState.providerDecision_eq_ok hnext
  exact ⟨hpayload, hsession, htimely, hsender, hphase, hstep, hgeneration, hstate⟩

structure Closing (s : Server) (now : Moment) (authenticated : ControlSessionGuard) (envelope : RendezvousEnvelope)
    (plan : ClosePlan) : Prop where
  payload : IsClosing envelope.payload
  session : s.state.activeSession envelope.sessionId = some plan.session
  timely : now.unixSecs < plan.session.metadata.expiresUnixSecs
  between : Between plan.session authenticated.identity plan.target
  step : plan.session.state.lastStep < envelope.step
  generation : envelope.generation = plan.session.state.generation
  next : plan.next = { plan.session.state with lastStep := envelope.step }
  message : envelope.toProtocolMessage = .ok plan.message

theorem closePlan_eq_ok {plan : ClosePlan} (h : closePlan s now authenticated envelope = .ok plan) :
    Closing s now authenticated envelope plan := by
  simp only [closePlan, bind_eq_ok, validateOrigin_eq_ok, require_eq_ok, okOr_eq_ok, orFail_eq_ok, pure_eq_ok,
    exists_const, otherParticipant_eq_ok, RendezvousState.acceptMetadata_eq_ok] at h
  obtain ⟨_, hpayload, message, hmessage, session, hsession, htimely, target, ⟨hbetween, _⟩, next,
    ⟨_, _, hgeneration, hstep, rfl⟩, rfl⟩ := h
  exact ⟨hpayload, hsession, htimely, hbetween, hstep, hgeneration, rfl, hmessage⟩

/-- A close that passes every check is planned. -/
theorem closePlan_of_checks {target : SessionOwner} (horigin : validateOrigin s now authenticated envelope = .ok ())
    (hpayload : IsClosing envelope.payload) (hactive : s.state.activeSession envelope.sessionId = some session)
    (htimely : now.unixSecs < session.metadata.expiresUnixSecs) (hbetween : Between session authenticated.identity target)
    (hnamed : target.name = envelope.target) (hid : envelope.sessionId = session.state.sessionId)
    (hgeneration : envelope.generation = session.state.generation) (hstep : session.state.lastStep < envelope.step) :
    ∃ message, envelope.toProtocolMessage = .ok message ∧ closePlan s now authenticated envelope =
      .ok ⟨session, target, { session.state with lastStep := envelope.step }, message⟩ := by
  obtain ⟨message, hmessage⟩ := toProtocolMessage_eq_ok envelope
  have hother : otherParticipant session authenticated.identity envelope.target = .ok target :=
    otherParticipant_eq_ok.mpr ⟨hbetween, hnamed⟩
  have hnext : session.state.acceptMetadata envelope.sessionId envelope.step envelope.generation
      envelope.expiresUnixSecs now.unixSecs = .ok { session.state with lastStep := envelope.step } :=
    RendezvousState.acceptMetadata_eq_ok.mpr ⟨hid, (validateOrigin_eq_ok.mp horigin).2.2, hgeneration, hstep, rfl⟩
  refine ⟨message, hmessage, ?_⟩
  simp only [closePlan, horigin, hmessage, hactive, hother, hnext, okOr, orFail, ok_bind, require_of hpayload,
    require_of htimely]
  rfl

/-- How an envelope relates to the candidate generation of its session. -/
inductive GenerationCase (session : StoredSession) (now : Moment) (participant : UInt8)
    (envelope : RendezvousEnvelope) : Option GenerationUpdate → Prop
  | kept (h : ∀ set, envelope.payload ≠ .candidateSetV2 set) (hg : envelope.generation = session.state.generation) :
      GenerationCase session now participant envelope none
  | announced (set) (h : envelope.payload = .candidateSetV2 set)
      (ho : set.ownerIsInitiator = decide (participant = 1))
      (hg : envelope.generation = session.state.generation)
      (hb : session.candidateGenerationAnnouncedBy &&& participant = 0) :
      GenerationCase session now participant envelope
        (some ⟨envelope.generation.value, session.candidateGenerationAnnouncedBy ||| participant, false⟩)
  | advanced (set) (h : envelope.payload = .candidateSetV2 set)
      (ho : set.ownerIsInitiator = decide (participant = 1))
      (hg : envelope.generation.value.toNat = session.state.generation.value.toNat + 1)
      (hb : session.candidateGenerationAnnouncedBy = 3) (hm : envelope.generation.value ≤ 32)
      (ht : 250 * millisecond ≤ now.instant - session.generationStarted) :
      GenerationCase session now participant envelope (some ⟨envelope.generation.value, participant, true⟩)

theorem generationPlan_eq_ok {participant : UInt8} {state next : RendezvousState} {update : Option GenerationUpdate}
    {expires : UInt64} (h : generationPlan session now participant envelope = .ok (state, update))
    (hm : state.acceptMetadata envelope.sessionId envelope.step envelope.generation expires now.unixSecs = .ok next) :
    GenerationCase session now participant envelope update ∧ session.state.lastStep < envelope.step ∧
      next = { session.state with lastStep := envelope.step, generation := envelope.generation } := by
  obtain ⟨_, _, hgen, hstep, rfl⟩ := RendezvousState.acceptMetadata_eq_ok.mp hm
  rw [generationPlan] at h
  split at h
  · next set hpayload =>
    simp only [bind_eq_ok, require_eq_ok, exists_const] at h
    obtain ⟨howner, h⟩ := h
    split at h
    · simp only [bind_eq_ok, require_eq_ok, pure_eq_ok, Prod.mk.injEq, exists_const] at h
      obtain ⟨hbit, rfl, rfl⟩ := h
      refine ⟨.announced set hpayload howner hgen hbit, hstep, ?_⟩
      rw [hgen]
    · simp only [bind_eq_ok, require_eq_ok, orFail_eq_ok, pure_eq_ok, Prod.mk.injEq, exists_const] at h
      obtain ⟨⟨_, hall, hmax, htime⟩, next, hnext, rfl, rfl⟩ := h
      obtain ⟨hval, rfl⟩ := RendezvousState.advanceGeneration_eq_ok hnext
      exact ⟨.advanced set hpayload howner hval hall hmax htime, hstep, rfl⟩
  · next hpayload =>
    simp only [pure_eq_ok, Prod.mk.injEq] at h
    obtain ⟨rfl, rfl⟩ := h
    refine ⟨.kept hpayload hgen, hstep, ?_⟩
    rw [hgen]

structure Forwarding (s : Server) (now : Moment) (authenticated : ControlSessionGuard) (envelope : RendezvousEnvelope)
    (plan : ForwardPlan) : Prop where
  origin : (s.registry.isActiveSession authenticated.identity = true ∧ envelope.sender = authenticated.identity.name ∧
    envelope.version = authenticated.protocolVersion) ∧ supportsV02 envelope.version ∧
      now.unixSecs < envelope.expiresUnixSecs
  payload : IsForwardable envelope.payload
  session : s.state.activeSession envelope.sessionId = some plan.session
  timely : now.unixSecs < plan.session.metadata.expiresUnixSecs
  accepted : plan.session.metadata.protocol ≠ none
  between : Between plan.session authenticated.identity plan.target
  named : plan.target.name = envelope.target
  participant : plan.participant = participantBit plan.session authenticated.identity
  generation : GenerationCase plan.session now plan.participant envelope plan.generationUpdate
  step : plan.session.state.lastStep < envelope.step
  next : plan.next = { plan.session.state with lastStep := envelope.step, generation := envelope.generation }
  relay : relayPlan plan.session plan.participant envelope = .ok plan.relayUpdate
  path : observedPathPlan s.registry plan.session envelope = .ok plan.observedPath

theorem forwardPlan_eq_ok {plan : ForwardPlan} (h : forwardPlan s now authenticated envelope = .ok plan) :
    Forwarding s now authenticated envelope plan := by
  simp only [forwardPlan, bind_eq_ok, validateOrigin_eq_ok, require_eq_ok, okOr_eq_ok, orFail_eq_ok, pure_eq_ok,
    exists_const, otherParticipant_eq_ok] at h
  obtain ⟨horigin, hpayload, _, _, session, hsession, htimely, haccepted, target, ⟨hbetween, hnamed⟩, ⟨state, update⟩,
    hgen, next, hnext, relay, hrelay, path, hpath, rfl⟩ := h
  obtain ⟨hcase, hstep, hstate⟩ := generationPlan_eq_ok hgen hnext
  exact ⟨horigin, hpayload, hsession, htimely, haccepted, hbetween, hnamed, rfl, hcase, hstep, hstate, hrelay, hpath⟩

/-- How an envelope relates to the relay admission of its session. -/
theorem relayPlan_eq_ok {participant : UInt8} {update : Option (UInt8 × Bool)}
    (h : relayPlan session participant envelope = .ok update) :
    ((∀ request, envelope.payload ≠ .relayRequest request) ∧ update = none) ∨
      ∃ request, envelope.payload = .relayRequest request ∧
        request.datagram = decide (session.metadata.protocol = some .UDP) ∧
        update = some (participant, request.datagram) := by
  rw [relayPlan] at h
  split at h
  · next request hpayload =>
    simp only [bind_eq_ok, require_eq_ok, pure_eq_ok, exists_const] at h
    exact .inr ⟨request, hpayload, h.1, h.2.2.symm⟩
  · next hpayload =>
    exact .inl ⟨hpayload, (pure_eq_ok.mp h).symm⟩

theorem relayTarget_eq_ok {target : SessionOwner} :
    relayTarget session authenticated frame = .ok target ↔ session.state.phase = .accepted ∧
      Between session authenticated.identity target ∧ session.relay.Authorized ∧
      ∃ datagram, session.relay.datagram = some datagram ∧ FlagsMatch frame.flags datagram := by
  simp only [relayTarget, bind_eq_ok, require_eq_ok, okOr_eq_ok, pure_eq_ok, exists_const, opposite_eq_ok]
  constructor
  · rintro ⟨hphase, target', hbetween, hauth, datagram, hdatagram, hflags, rfl⟩
    exact ⟨hphase, hbetween, hauth, datagram, hdatagram, hflags⟩
  · rintro ⟨hphase, hbetween, hauth, datagram, hdatagram, hflags⟩
    exact ⟨hphase, target, hbetween, hauth, datagram, hdatagram, hflags, rfl⟩

end Rustgo.Coordinator
