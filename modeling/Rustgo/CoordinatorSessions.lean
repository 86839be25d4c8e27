import Rustgo.CoordinatorPlans
import Rustgo.CoordinatorSteps

namespace Rustgo.Coordinator

open Checks Protocol Registry Rendezvous Tables RendezvousCoordinator

/-- What every later version of a session shares with it. -/
structure Keeps (session session' : StoredSession) : Prop where
  consumer : session'.consumer = session.consumer
  provider : session'.provider = session.provider
  sessionId : session'.metadata.sessionId = session.metadata.sessionId
  expires : session'.metadata.expiresUnixSecs = session.metadata.expiresUnixSecs

/-- The sessions differ at most in what is kept for the observers. -/
structure SameCore (session session' : StoredSession) : Prop where
  metadata : session'.metadata = session.metadata
  consumer : session'.consumer = session.consumer
  provider : session'.provider = session.provider
  state : session'.state = session.state
  relay : session'.relay = session.relay
  announced : session'.candidateGenerationAnnouncedBy = session.candidateGenerationAnnouncedBy
  digests : session'.candidateDigests = session.candidateDigests
  started : session'.generationStarted = session.generationStarted

variable {c : RendezvousCoordinator} {s : Server} {now : Moment} {authenticated : ControlSessionGuard}
  {envelope : RendezvousEnvelope} {frame : PeerRelayFrame} {session session' : StoredSession}

theorem SameCore.refl (session : StoredSession) : SameCore session session :=
  ⟨rfl, rfl, rfl, rfl, rfl, rfl, rfl, rfl⟩

theorem SameCore.keeps (h : SameCore session session') : Keeps session session' :=
  ⟨h.consumer, h.provider, congrArg _ h.metadata, congrArg _ h.metadata⟩

theorem applyPath_core (path : Option SessionPath) : SameCore session (c.applyPath session now path).1 := by
  unfold applyPath
  split
  · exact ⟨rfl, rfl, rfl, rfl, rfl, rfl, rfl, rfl⟩
  · exact .refl session

theorem countTraffic_core : SameCore session (countTraffic session authenticated frame) := by
  rw [countTraffic]
  dsimp only
  split
  · exact ⟨rfl, rfl, rfl, rfl, rfl, rfl, rfl, rfl⟩
  · split
    · exact ⟨rfl, rfl, rfl, rfl, rfl, rfl, rfl, rfl⟩
    · split
      · exact ⟨rfl, rfl, rfl, rfl, rfl, rfl, rfl, rfl⟩
      · exact ⟨rfl, rfl, rfl, rfl, rfl, rfl, rfl, rfl⟩
      · exact .refl session
      · exact .refl session

theorem flushSession_core : SameCore session (c.flushSession now session).1 := by
  rw [flushSession]
  split
  · exact ⟨rfl, rfl, rfl, rfl, rfl, rfl, rfl, rfl⟩
  · exact .refl session

theorem relayedSession_core {r : ClientRegistry} :
    SameCore (admittedSession now frame session) (relayedSession r now authenticated frame session) := by
  rw [relayedSession]
  split
  · exact countTraffic_core
  · exact .refl _

theorem forwardedSession_core {plan : ForwardPlan} :
    SameCore (applyRelay (c.announcedSession now authenticated envelope plan) plan.relayUpdate)
      (forwardedSession c now authenticated envelope plan) := applyPath_core plan.observedPath

theorem decidedSession_eq (plan : DecisionPlan) : decidedSession plan = { plan.session with
    state := plan.next
    metadata := { plan.session.metadata with
      protocol := if plan.decision.isAccepted then plan.decision.protocol else plan.session.metadata.protocol } } := by
  rw [decidedSession]
  dsimp only
  split <;> rfl

theorem decidedSession_keeps {plan : DecisionPlan} : Keeps plan.session (decidedSession plan) := by
  rw [decidedSession_eq]
  exact ⟨rfl, rfl, rfl, rfl⟩

theorem applyDigest_eq (session : StoredSession) (sender : DeviceName) (digest : Option (Vector UInt8 32)) :
    ∃ digests, applyDigest session sender digest = { session with candidateDigests := digests } := by
  cases digest with
  | none => exact ⟨_, rfl⟩
  | some digest => exact ⟨_, rfl⟩

theorem applyRelay_eq (session : StoredSession) (update : Option (UInt8 × Bool)) :
    ∃ relay, applyRelay session update = { session with relay := relay } := by
  cases update with
  | none => exact ⟨_, rfl⟩
  | some update => exact ⟨_, rfl⟩

/-- The relay admission once the candidates of an envelope are noted. -/
def announcedRelay (now : Moment) (plan : ForwardPlan) : RelayAdmission :=
  if plan.generationUpdate.any (·.advanced) ∧ ¬plan.session.relay.Authorized then .new now else plan.session.relay

theorem applyGeneration_eq (session : StoredSession) (now : Moment) (update : Option GenerationUpdate) :
    applyGeneration session now update = { session with
      candidateGenerationAnnouncedBy := (update.map (·.announcedBy)).getD session.candidateGenerationAnnouncedBy
      generationStarted := if update.any (·.advanced) then now.instant else session.generationStarted
      relay := if update.any (·.advanced) ∧ ¬session.relay.Authorized then .new now else session.relay
      candidateDigests := if update.any (·.advanced) then (none, none) else session.candidateDigests } := by
  cases update with
  | none => simp [applyGeneration]
  | some update =>
      cases hadv : update.advanced with
      | false => simp [applyGeneration, hadv]
      | true =>
          by_cases hauth : session.relay.Authorized
          · simp [applyGeneration, hadv, hauth]
          · simp [applyGeneration, hadv, hauth]

section Forwarded

variable (c now authenticated envelope) (plan : ForwardPlan)

theorem announcedSession_eq : ∃ digests, c.announcedSession now authenticated envelope plan = { plan.session with
    state := plan.next
    candidateGenerationAnnouncedBy :=
      (plan.generationUpdate.map (·.announcedBy)).getD plan.session.candidateGenerationAnnouncedBy
    generationStarted :=
      if plan.generationUpdate.any (·.advanced) then now.instant else plan.session.generationStarted
    relay := announcedRelay now plan
    candidateDigests := digests } := by
  have hgeneration := applyGeneration_eq { plan.session with state := plan.next } now plan.generationUpdate
  obtain ⟨digests, hdigests⟩ := applyDigest_eq (applyGeneration { plan.session with state := plan.next } now
    plan.generationUpdate) authenticated.identity.name (c.candidateDigest envelope)
  refine ⟨digests, ?_⟩
  rw [announcedSession, hdigests, hgeneration]
  rfl

theorem announcedSession_digests : (c.announcedSession now authenticated envelope plan).candidateDigests =
    let digests := if plan.generationUpdate.any (·.advanced) then (none, none) else plan.session.candidateDigests
    match c.candidateDigest envelope with
    | none => digests
    | some digest =>
        if authenticated.identity.name = plan.session.consumer.name then (some digest, digests.2)
        else (digests.1, some digest) := by
  rw [announcedSession, applyGeneration_eq]
  cases c.candidateDigest envelope with
  | none => rfl
  | some digest => rfl

theorem forwardedSession_fields :
    let next := forwardedSession c now authenticated envelope plan
    next.metadata = plan.session.metadata ∧ next.consumer = plan.session.consumer ∧
      next.provider = plan.session.provider ∧ next.state = plan.next ∧
      next.candidateGenerationAnnouncedBy =
        (plan.generationUpdate.map (·.announcedBy)).getD plan.session.candidateGenerationAnnouncedBy ∧
      next.generationStarted =
        (if plan.generationUpdate.any (·.advanced) then now.instant else plan.session.generationStarted) ∧
      next.candidateDigests = (c.announcedSession now authenticated envelope plan).candidateDigests := by
  obtain ⟨digests, hannounced⟩ := announcedSession_eq c now authenticated envelope plan
  obtain ⟨relay, hrelay⟩ := applyRelay_eq (c.announcedSession now authenticated envelope plan) plan.relayUpdate
  have hcore : SameCore (applyRelay (c.announcedSession now authenticated envelope plan) plan.relayUpdate)
    (forwardedSession c now authenticated envelope plan) := forwardedSession_core
  rw [hrelay] at hcore
  refine ⟨hcore.metadata.trans ?_, hcore.consumer.trans ?_, hcore.provider.trans ?_, hcore.state.trans ?_,
    hcore.announced.trans ?_, hcore.started.trans ?_, hcore.digests⟩
  all_goals rw [hannounced]

theorem forwardedSession_relay : (forwardedSession c now authenticated envelope plan).relay =
    match plan.relayUpdate with
    | none => announcedRelay now plan
    | some (participant, datagram) => { announcedRelay now plan with
        requestedBy := (announcedRelay now plan).requestedBy ||| participant
        datagram := some datagram } := by
  have hcore : SameCore (applyRelay (c.announcedSession now authenticated envelope plan) plan.relayUpdate)
    (forwardedSession c now authenticated envelope plan) := forwardedSession_core
  obtain ⟨digests, hannounced⟩ := announcedSession_eq c now authenticated envelope plan
  rw [hcore.relay, hannounced]
  cases plan.relayUpdate with
  | none => rfl
  | some update => rfl

theorem forwardedSession_keeps : Keeps plan.session (forwardedSession c now authenticated envelope plan) := by
  obtain ⟨hmetadata, hconsumer, hprovider, _⟩ := forwardedSession_fields c now authenticated envelope plan
  exact ⟨hconsumer, hprovider, congrArg _ hmetadata, congrArg _ hmetadata⟩

end Forwarded

theorem admitFrame_fields (relay : RelayAdmission) (now : Moment) (bytes : Nat) :
    (relay.admitFrame now bytes).2.requestedBy = relay.requestedBy ∧
      (relay.admitFrame now bytes).2.datagram = relay.datagram := by
  have hroll : (relay.roll now).requestedBy = relay.requestedBy ∧ (relay.roll now).datagram = relay.datagram := by
    rw [RelayAdmission.roll]
    split <;> exact ⟨rfl, rfl⟩
  unfold RelayAdmission.admitFrame
  dsimp only
  split
  · exact hroll
  · split
    · exact hroll
    · exact hroll

theorem relayedSession_keeps {r : ClientRegistry} :
    Keeps session (relayedSession r now authenticated frame session) :=
  have h := relayedSession_core.keeps
  ⟨h.consumer, h.provider, h.sessionId, h.expires⟩

end Rustgo.Coordinator
