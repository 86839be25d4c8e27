import Rustgo.CoordinatorCoherent

namespace Rustgo.Coordinator

open Checks Protocol Registry Rendezvous Tables RendezvousCoordinator CoordinatorState Runs

variable {c : RendezvousCoordinator} {s s' : Server} {r : ClientRegistry} {owner source target : SessionOwner}
  {name : DeviceName} {message : Message} {session : StoredSession} {identity : AuthenticatedClient} {now : Moment}
  {authenticated : ControlSessionGuard} {envelope : RendezvousEnvelope} {plan : ForwardPlan} {permit : Permit}
  {token : Vector UInt8 32} {set : CandidateSetV2} {op : Operation}

/-- How many messages the control session of the owner can still take. -/
def freeSlots (r : ClientRegistry) (owner : SessionOwner) : Nat :=
  match r.byName.lookup owner.name with
  | none => 0
  | some runtime =>
      if runtime.available = true ∧ runtime.identity = owner.identity ∧ runtime.outbound.closed = false then
        runtime.outbound.capacity - runtime.outbound.queued.length
      else 0

section FreeSlots

theorem routable_iff : Routable r owner ↔ 0 < freeSlots r owner := by
  rw [Routable, freeSlots]
  cases hl : r.byName.lookup owner.name with
  | none => simp
  | some runtime =>
      simp only [Option.some.injEq, exists_eq_left', Outbound.HasRoom]
      split
      · next hopen =>
        simp only [hopen.1, hopen.2.1, hopen.2.2, true_and]
        omega
      · next hopen =>
        constructor
        · rintro ⟨hav, hid, hclosed, _⟩
          exact absurd ⟨hav, hid, hclosed⟩ hopen
        · intro h
          omega

theorem freeSlots_congr {r' : ClientRegistry} (h : r'.byName.lookup owner.name = r.byName.lookup owner.name) :
    freeSlots r' owner = freeSlots r owner := by
  simp only [freeSlots, h]

theorem freeSlots_trySend (h : 0 < freeSlots r owner) :
    freeSlots (r.trySend owner.name message) owner = freeSlots r owner - 1 := by
  obtain ⟨runtime, hl, hav, hid, hroom⟩ := routable_iff.mpr h
  have hsend : ∃ q, runtime.outbound.trySend message = some q := by
    cases hq : runtime.outbound.trySend message with
    | none => exact absurd hroom (Outbound.trySend_eq_none.mp hq)
    | some q => exact ⟨q, rfl⟩
  obtain ⟨q, hq⟩ := hsend
  obtain ⟨hqueued, hcapacity, hclosed⟩ := Outbound.trySend_queued hq
  have hid' : SessionRuntime.identity { runtime with outbound := q } = owner.identity := hid
  simp only [freeSlots, ClientRegistry.lookup_trySend hl, hl, hq, Option.getD_some]
  rw [if_pos ⟨hav, hid', hclosed.trans hroom.1⟩, if_pos ⟨hav, hid, hroom.1⟩, hqueued, hcapacity, List.length_append,
    List.length_singleton]
  omega

theorem isActiveSession_trySend (identity : AuthenticatedClient) :
    (r.trySend name message).isActiveSession identity = true ↔ r.isActiveSession identity = true := by
  rw [ClientRegistry.isActiveSession_iff, ClientRegistry.isActiveSession_iff]
  rw [ClientRegistry.trySend, ClientRegistry.mapRuntime]
  split
  · exact Iff.rfl
  · next runtime hl =>
    by_cases hname : identity.name = name
    · rw [hname, Finmap.lookup_insert, hl]
      simp only [Option.some.injEq, exists_eq_left']
    · rw [Finmap.lookup_insert_of_ne _ hname]

/-- Other tasks may fill the queue of an owner, up to its last slot. -/
theorem run_enqueue (message : Message) {n : Nat} (h : n ≤ freeSlots s.registry owner) :
    ∃ r, Run (Step c) s (List.replicate n (.enqueue owner.name message)) { s with registry := r } ∧
      freeSlots r owner = freeSlots s.registry owner - n ∧
      ∀ identity, r.isActiveSession identity = true ↔ s.registry.isActiveSession identity = true := by
  induction n with
  | zero => exact ⟨s.registry, .refl s, rfl, fun _ => Iff.rfl⟩
  | succ n ih =>
      obtain ⟨r, hrun, hfree, hactive⟩ := ih (Nat.le_of_succ_le h)
      refine ⟨r.trySend owner.name message, ?_, ?_, ?_⟩
      · rw [List.replicate_succ']
        exact hrun.snoc ⟨trivial, .ok (), rfl⟩
      · rw [freeSlots_trySend (by omega), hfree]
        omega
      · exact fun identity => (isActiveSession_trySend identity).trans (hactive identity)

end FreeSlots

/-- The sender is the source, and the other participant the target. -/
def Exchange (session : StoredSession) (identity : AuthenticatedClient) (source target : SessionOwner) : Prop :=
  (session.consumer.Matches identity ∧ source = session.consumer ∧ target = session.provider) ∨
    (¬session.consumer.Matches identity ∧ session.provider.Matches identity ∧ source = session.provider ∧
      target = session.consumer)

theorem Exchange.between (h : Exchange session identity source target) : Between session identity target := by
  rcases h with ⟨hm, _, ht⟩ | ⟨hm, hp, _, ht⟩
  · exact .inl ⟨hm, ht⟩
  · exact .inr ⟨hm, hp, ht⟩

theorem Between.exchange (h : Between session identity target) : ∃ source, Exchange session identity source target := by
  rcases h with ⟨hm, ht⟩ | ⟨hm, hp, ht⟩
  · exact ⟨session.consumer, .inl ⟨hm, rfl, ht⟩⟩
  · exact ⟨session.provider, .inr ⟨hm, hp, rfl, ht⟩⟩

/-- The grant for both participants finds a slot in both queues, after the
envelope took one in the queue of the target. -/
theorem Exchange.grant_routable {r' : ClientRegistry} {id : SessionId} (hx : Exchange session identity source target)
    (hc : Coherent id session) (ht : 0 < freeSlots r target)
    (hr : ∀ owner, owner.name ≠ target.name → freeSlots r' owner = freeSlots r owner)
    (ht' : freeSlots r' target = freeSlots r target - 1) :
    (Routable r' session.consumer ∧ Routable r' session.provider) ↔
      1 < freeSlots r target ∧ 0 < freeSlots r source := by
  rw [routable_iff, routable_iff]
  rcases hx with ⟨_, rfl, rfl⟩ | ⟨_, _, rfl, rfl⟩
  · rw [hr _ hc.distinct, ht']
    omega
  · rw [hr _ hc.distinct.symm, ht']
    omega

/-- The envelope passes every check and brings the last candidates of the
current generation: the other participant has announced its own. -/
structure CompletesCandidates (s : Server) (now : Moment) (authenticated : ControlSessionGuard)
    (envelope : RendezvousEnvelope) (set : CandidateSetV2) (session : StoredSession) (source target : SessionOwner) :
    Prop where
  payload : envelope.payload = .candidateSetV2 set
  active : s.registry.isActiveSession authenticated.identity = true
  sender : envelope.sender = authenticated.identity.name
  version : envelope.version = authenticated.protocolVersion
  supported : supportsV02 envelope.version
  unexpired : now.unixSecs < envelope.expiresUnixSecs
  stored : s.state.activeSession envelope.sessionId = some session
  timely : now.unixSecs < session.metadata.expiresUnixSecs
  accepted : session.metadata.protocol ≠ none
  exchange : Exchange session authenticated.identity source target
  named : target.name = envelope.target
  owner : set.ownerIsInitiator = decide (session.consumer.Matches authenticated.identity)
  generation : envelope.generation = session.state.generation
  step : session.state.lastStep < envelope.step
  last : session.candidateGenerationAnnouncedBy = if session.consumer.Matches authenticated.identity then 2 else 1

/-- The candidates are complete and the envelope can be queued, but not the grant that follows it. -/
def GrantStranded (s : Server) : Operation → Prop
  | .forwardEnvelope now _ authenticated envelope => ∃ set session source target,
      CompletesCandidates s now authenticated envelope set session source target ∧
        0 < freeSlots s.registry target ∧ (freeSlots s.registry target = 1 ∨ freeSlots s.registry source = 0)
  | _ => False

/-- The calls by which a device hands in an envelope. -/
def Operation.IsEnvelopeCall : Operation → Prop
  | .request .. | .providerDecision .. | .forwardEnvelope .. | .closeSession .. => True
  | _ => False

section Plan

theorem CompletesCandidates.planned (h : CompletesCandidates s now authenticated envelope set session source target)
    (hc : Coherent envelope.sessionId session) : ∃ plan, forwardPlan s now authenticated envelope = .ok plan ∧
      plan.session = session ∧ plan.target = target ∧
      plan.generationUpdate = some ⟨envelope.generation.value, 3, false⟩ := by
  obtain ⟨message, hmessage⟩ := toProtocolMessage_eq_ok envelope
  have hgen : generationPlan session now (participantBit session authenticated.identity) envelope =
      .ok (session.state, some ⟨envelope.generation.value, 3, false⟩) := by
    have howner : set.ownerIsInitiator = decide (participantBit session authenticated.identity = 1) := by
      rw [h.owner]
      exact decide_eq_decide.mpr participantBit_eq_one_iff.symm
    have hsame : envelope.generation.value = session.state.generation.value := congrArg _ h.generation
    simp only [generationPlan, h.payload, require_of howner, ok_bind, if_pos hsame]
    rw [participantBit]
    rw [h.last]
    split
    · rfl
    · rfl
  have hnext : session.state.acceptMetadata envelope.sessionId envelope.step envelope.generation
      envelope.expiresUnixSecs now.unixSecs = .ok { session.state with lastStep := envelope.step } :=
    RendezvousState.acceptMetadata_eq_ok.mpr ⟨hc.stateId.symm, h.unexpired, h.generation, h.step, rfl⟩
  refine ⟨{
    session
    participant := participantBit session authenticated.identity
    target
    next := { session.state with lastStep := envelope.step }
    relayUpdate := none
    generationUpdate := some ⟨envelope.generation.value, 3, false⟩
    observedPath := none
    message }, ?_, rfl, rfl, rfl⟩
  have horigin : validateOrigin s now authenticated envelope = .ok () :=
    validateOrigin_eq_ok.mpr ⟨⟨h.active, h.sender, h.version⟩, h.supported, h.unexpired⟩
  have htarget : otherParticipant session authenticated.identity envelope.target = .ok target :=
    otherParticipant_eq_ok.mpr ⟨h.exchange.between, h.named⟩
  simp only [forwardPlan, horigin, hmessage, h.stored, require_of h.timely,
    require_of h.accepted, htarget, hgen, hnext, ok_bind, orFail, okOr, relayPlan, observedPathPlan, reportedPath,
    h.payload]
  rfl

end Plan

section Grant

variable (c s now authenticated envelope plan) in
theorem forwardedBy_freeSlots (hp : permit.identity = target.identity) (ht : 0 < freeSlots s.registry target) :
    let r := (s.forwardedBy c now authenticated envelope plan permit).registry
    (∀ owner, owner.name ≠ target.name → freeSlots r owner = freeSlots s.registry owner) ∧
      freeSlots r target = freeSlots s.registry target - 1 := by
  have hname : permit.identity.name = target.name := congrArg _ hp
  have hobserved (owner) : freeSlots (tryObserveAll s.registry (forwardedEvents c now authenticated envelope plan))
      owner = freeSlots s.registry owner := freeSlots_congr (by rw [byName_tryObserveAll])
  dsimp only [Server.forwardedBy]
  rw [hname]
  constructor
  · intro owner howner
    rw [freeSlots_congr (ClientRegistry.lookup_trySend_ne howner), hobserved]
  · rw [freeSlots_trySend (by rw [hobserved]; exact ht), hobserved]

theorem forwardedGrant_ne_none {id : SessionId} (hc : Coherent id plan.session)
    (hf : Forwarding s now authenticated envelope plan) :
    forwardedGrant c now token authenticated envelope plan ≠ none ↔
      (c.candidateDigest envelope).isSome = true ∧
        (plan.generationUpdate.map (·.announcedBy)).getD plan.session.candidateGenerationAnnouncedBy = 3 := by
  obtain ⟨_, hinitiator, hresponder⟩ := hc.forwarded_digests (c := c) hf
  obtain ⟨_, _, _, _, hannounced, _, hdigests⟩ := forwardedSession_fields c now authenticated envelope plan
  obtain ⟨_, heq⟩ := announcedSession_eq c now authenticated envelope plan
  have hmask : (c.announcedSession now authenticated envelope plan).candidateGenerationAnnouncedBy =
      (plan.generationUpdate.map (·.announcedBy)).getD plan.session.candidateGenerationAnnouncedBy := by rw [heq]
  rw [hannounced, hdigests] at hinitiator hresponder
  rw [forwardedGrant, punchGrant]
  rw [hmask]
  split
  · next hboth =>
    rw [hboth.2] at hinitiator hresponder
    have h1 : (c.announcedSession now authenticated envelope plan).candidateDigests.1 ≠ none :=
      hinitiator.mp (by decide)
    have h2 : (c.announcedSession now authenticated envelope plan).candidateDigests.2 ≠ none :=
      hresponder.mp (by decide)
    split
    · simpa using hboth
    · next hno =>
      obtain ⟨initiator, hi⟩ := Option.ne_none_iff_exists'.mp h1
      obtain ⟨responder, hr⟩ := Option.ne_none_iff_exists'.mp h2
      exact absurd (Prod.ext hi hr) (hno initiator responder)
  · next hboth => simpa using hboth

/-- Where the grant is due and cannot be queued, the candidates were complete. -/
theorem Forwarding.completes {id : SessionId} (hf : Forwarding s now authenticated envelope plan)
    (hc : Coherent id plan.session) (hdigest : (c.candidateDigest envelope).isSome = true)
    (hall : (plan.generationUpdate.map (·.announcedBy)).getD plan.session.candidateGenerationAnnouncedBy = 3)
    (hx : Exchange plan.session authenticated.identity source plan.target) :
    ∃ set, CompletesCandidates s now authenticated envelope set plan.session source plan.target := by
  have hbit : IsBit plan.participant := hf.participant ▸ isBit_participantBit _ _
  have hcase := hf.generation
  generalize plan.generationUpdate = update at hcase hall
  cases hcase with
  | kept hset _ =>
      rw [candidateDigest_eq_none hset] at hdigest
      exact nomatch hdigest
  | advanced set _ _ _ _ _ _ =>
      have hthree : plan.participant = 3 := hall
      rcases hbit with h | h
      · rw [h] at hthree
        exact absurd hthree (by decide)
      · rw [h] at hthree
        exact absurd hthree (by decide)
  | announced set hset howner hgen hfree =>
      have hlast := (completes_iff hc.announced hbit hfree).mp hall
      refine ⟨set, hset, hf.origin.1.1, hf.origin.1.2.1, hf.origin.1.2.2, hf.origin.2.1, hf.origin.2.2, hf.session,
        hf.timely, hf.accepted, hx, hf.named, ?_, hgen, hf.step, ?_⟩
      · rw [howner, hf.participant]
        exact decide_eq_decide.mpr participantBit_eq_one_iff
      · rw [hlast, hf.participant, participantBit]
        split
        · rfl
        · rfl

end Grant

section Calls

variable (hk : Kept s) (hplan : forwardPlan s now authenticated envelope = .ok plan)
  (hpermit : reserveTo s.registry plan.target = .ok permit)

include hk hplan hpermit

/-- Whether both queues have room for the grant, once the envelope is queued. -/
theorem grant_routable_iff (hx : Exchange plan.session authenticated.identity source plan.target) :
    (Routable (s.forwardedBy c now authenticated envelope plan permit).registry plan.session.consumer ∧
      Routable (s.forwardedBy c now authenticated envelope plan permit).registry plan.session.provider) ↔
    1 < freeSlots s.registry plan.target ∧ 0 < freeSlots s.registry source := by
  obtain ⟨hroute, hidentity⟩ := reserveTo_eq_ok.mp hpermit
  have hfree := routable_iff.mp hroute
  obtain ⟨hothers, htarget⟩ := forwardedBy_freeSlots c s now authenticated envelope plan hidentity hfree
  exact hx.grant_routable (hk.coherent (forwardPlan_eq_ok hplan).session) hfree hothers htarget

/-- A grant that is refused was stranded. -/
theorem stranded_of_refused (hsome : forwardedGrant c now token authenticated envelope plan ≠ none)
    (hblocked : ¬(Routable (s.forwardedBy c now authenticated envelope plan permit).registry plan.session.consumer ∧
      Routable (s.forwardedBy c now authenticated envelope plan permit).registry plan.session.provider)) :
    GrantStranded s (.forwardEnvelope now token authenticated envelope) := by
  have hf := forwardPlan_eq_ok hplan
  have hc := hk.coherent hf.session
  have hfree := routable_iff.mp (reserveTo_eq_ok.mp hpermit).1
  obtain ⟨source, hx⟩ := hf.between.exchange
  obtain ⟨hdigest, hall⟩ := (forwardedGrant_ne_none hc hf).mp hsome
  obtain ⟨set, hcompletes⟩ := hf.completes hc hdigest hall hx
  rw [grant_routable_iff hk hplan hpermit hx] at hblocked
  exact ⟨set, plan.session, source, plan.target, hcompletes, hfree, by omega⟩

end Calls

theorem forwardEnvelope_error (hk : Kept s) {e : RendezvousErrorCode}
    (h : c.forwardEnvelope now token authenticated envelope s = some (.error e, s'))
    (hstranded : ¬GrantStranded s (.forwardEnvelope now token authenticated envelope)) : s' = s := by
  rcases forwardEnvelope_cases h with ⟨_, _, hs⟩ | ⟨plan, permit, hplan, hpermit, hgrant⟩
  · exact hs
  obtain ⟨_, hconsumer, hprovider, _⟩ := forwardedSession_fields c now authenticated envelope plan
  rcases sendGrant_cases hgrant with ⟨he, _⟩ | ⟨_, _, _, hsome, hblocked⟩ | ⟨_, _, _, he, _⟩
  · exact nomatch he
  · exfalso
    apply hstranded
    apply stranded_of_refused hk hplan hpermit hsome
    rintro ⟨hc, hp⟩
    rw [hconsumer, hprovider] at hblocked
    exact hblocked _ _ (reserveTo_eq_ok.mpr ⟨hc, rfl⟩) (reserveTo_eq_ok.mpr ⟨hp, rfl⟩)
  · exact nomatch he

/-- A stranded grant fails a call that has already queued its envelope. -/
theorem forwardEnvelope_stranded (hk : Kept s)
    (h : GrantStranded s (.forwardEnvelope now token authenticated envelope)) :
    ∃ e t, c.forwardEnvelope now token authenticated envelope s = some (.error e, t) ∧ t.registry ≠ s.registry := by
  obtain ⟨set, session, source, target, hcompletes, hfree, hshort⟩ := h
  obtain ⟨plan, hplan, rfl, rfl, hupdate⟩ := hcompletes.planned (hk.coherent hcompletes.stored)
  have hf := forwardPlan_eq_ok hplan
  have hc := hk.coherent hf.session
  have hpermit : reserveTo s.registry plan.target = .ok ⟨plan.target.identity⟩ :=
    reserveTo_eq_ok.mpr ⟨routable_iff.mpr hfree, rfl⟩
  obtain ⟨_, hconsumer, hprovider, _⟩ := forwardedSession_fields c now authenticated envelope plan
  have hblocked := (grant_routable_iff (c := c) hk hplan hpermit hcompletes.exchange).not.mpr (by omega)
  have hsome : forwardedGrant c now token authenticated envelope plan ≠ none := by
    rw [forwardedGrant_ne_none hc hf, candidateDigest_eq set hcompletes.payload, hupdate]
    exact ⟨rfl, rfl⟩
  obtain ⟨⟨result, t⟩, hresult⟩ := sendGrant_returns (s := s.forwardedBy c now authenticated envelope plan
    ⟨plan.target.identity⟩) (forwardedSession c now authenticated envelope plan)
    (forwardedGrant c now token authenticated envelope plan)
  rw [forwardEnvelope_of_plan hplan hpermit, hresult]
  rcases sendGrant_cases hresult with ⟨_, hnone, _⟩ | ⟨e, rfl, rfl, _⟩ | ⟨_, p, q, _, _, hp, hq, _⟩
  · exact absurd hnone hsome
  · refine ⟨e, _, rfl, ?_⟩
    intro hregistry
    have hidentity : (Permit.mk plan.target.identity).identity = plan.target.identity := rfl
    obtain ⟨_, htarget⟩ := forwardedBy_freeSlots c s now authenticated envelope plan hidentity hfree
    rw [hregistry] at htarget
    omega
  · rw [hconsumer] at hp
    rw [hprovider] at hq
    exact absurd ⟨(reserveTo_eq_ok.mp hp).1, (reserveTo_eq_ok.mp hq).1⟩ hblocked

section Sample

def sampleStream : Message :=
  .openTcpStream ⟨1, 1, .v4 (Vector.replicate 4 127) 8080, ⟨List.replicate 32 5, by decide⟩⟩

/-- The provider has announced its candidates. -/
def sampleAnnounced : List Operation :=
  sampleConnect ++ sampleAccepted (sampleId 1) deviceA deviceB ++
    [.forwardEnvelope (sampleMoment 20) sampleToken deviceB (sampleCandidates deviceB deviceA 3 1 CandidateGeneration.one_ne_zero false)]

def sampleCompletes : Operation :=
  .forwardEnvelope (sampleMoment 30) sampleToken deviceA (sampleCandidates deviceA deviceB 4 1 CandidateGeneration.one_ne_zero true)

end Sample

end Rustgo.Coordinator
