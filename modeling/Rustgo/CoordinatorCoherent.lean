import Rustgo.CoordinatorQuota

namespace Rustgo.Coordinator

open Checks Protocol Registry Rendezvous Tables RendezvousCoordinator CoordinatorState Runs

variable {c : RendezvousCoordinator} {timely : Prop} {s s' : Server} {id sessionId : SessionId}
  {session session' other : StoredSession} {now : Moment} {authenticated : ControlSessionGuard}
  {envelope : RendezvousEnvelope} {frame : PeerRelayFrame}

section Masks

variable {x p : UInt8}

/-- A mask of the two participants. -/
def IsMask (x : UInt8) : Prop := x = 0 ∨ x = 1 ∨ x = 2 ∨ x = 3

def IsBit (p : UInt8) : Prop := p = 1 ∨ p = 2

theorem IsBit.isMask (hp : IsBit p) : IsMask p := hp.elim (fun h => .inr (.inl h)) fun h => .inr (.inr (.inl h))

theorem IsMask.or (hx : IsMask x) (hp : IsBit p) : IsMask (x ||| p) := by
  rw [IsMask]
  rcases hx with rfl | rfl | rfl | rfl <;> rcases hp with rfl | rfl <;> decide

theorem isBit_participantBit (session : StoredSession) (identity : AuthenticatedClient) :
    IsBit (participantBit session identity) := by
  rw [participantBit]
  split
  · exact .inl rfl
  · exact .inr rfl

/-- The masks in which the bit `p` is set. -/
theorem and_or_ne_zero (hx : IsMask x) (hp : IsBit p) (q : UInt8) (hq : IsBit q) :
    (x ||| p) &&& q ≠ 0 ↔ x &&& q ≠ 0 ∨ q = p := by
  rcases hx with rfl | rfl | rfl | rfl <;> rcases hp with rfl | rfl <;> rcases hq with rfl | rfl <;> decide

/-- Both bits are set once the last missing one is added. -/
theorem completes_iff (hx : IsMask x) (hp : IsBit p) (h : x &&& p = 0) : x ||| p = 3 ↔ x = 3 - p := by
  rcases hx with rfl | rfl | rfl | rfl <;> rcases hp with rfl | rfl <;> revert h <;> decide

end Masks

section Lookups

theorem active_put {state : CoordinatorState} (h : (state.putSession sessionId session).activeSession id = some other) :
    (id = sessionId ∧ other = session) ∨ (id ≠ sessionId ∧ state.activeSession id = some other) := by
  rw [activeSession_eq_some, putSession] at h
  by_cases hid : id = sessionId
  · rw [hid, Finmap.lookup_insert, Option.some.injEq, SessionRecord.active.injEq] at h
    exact .inl ⟨hid, h.symm⟩
  · rw [Finmap.lookup_insert_of_ne _ hid] at h
    exact .inr ⟨hid, activeSession_eq_some.mpr h⟩

theorem active_tombstone {state : CoordinatorState}
    (h : (state.tombstoneSession sessionId).1.activeSession id = some other) :
    id ≠ sessionId ∧ state.activeSession id = some other := by
  rw [tombstoneSession] at h
  split at h
  · rw [activeSession_eq_some] at h
    by_cases hid : id = sessionId
    · rw [hid, Finmap.lookup_insert] at h
      cases h
    · rw [Finmap.lookup_insert_of_ne _ hid] at h
      exact ⟨hid, activeSession_eq_some.mpr h⟩
  · next hno =>
    refine ⟨?_, h⟩
    rintro rfl
    exact hno _ (activeSession_eq_some.mp h)

theorem active_erase {state : CoordinatorState} {counts : Table DeviceName Nat} {expiry : MinHeap ExpiryEntry}
    (h : activeSession ⟨state.sessions.erase sessionId, counts, expiry⟩ id = some other) :
    id ≠ sessionId ∧ state.activeSession id = some other := by
  rw [activeSession_eq_some] at h
  by_cases hid : id = sessionId
  · rw [hid, Finmap.lookup_erase] at h
    exact nomatch h
  · rw [Finmap.lookup_erase_ne hid] at h
    exact ⟨hid, activeSession_eq_some.mpr h⟩

theorem active_open {state : CoordinatorState} (h : (openSession state session).activeSession id = some other) :
    (id = session.metadata.sessionId ∧ other = session) ∨
      (id ≠ session.metadata.sessionId ∧ state.activeSession id = some other) := by
  rw [activeSession_eq_some, openSession] at h
  by_cases hid : id = session.metadata.sessionId
  · rw [hid, Finmap.lookup_insert, Option.some.injEq, SessionRecord.active.injEq] at h
    exact .inl ⟨hid, h.symm⟩
  · rw [Finmap.lookup_insert_of_ne _ hid] at h
    exact .inr ⟨hid, activeSession_eq_some.mpr h⟩

end Lookups

/-- What the fields of an active session say about one another. -/
structure Coherent (id : SessionId) (session : StoredSession) : Prop where
  sessionId : session.metadata.sessionId = id
  stateId : session.state.sessionId = id
  accepted : session.state.phase = .accepted ↔ session.metadata.protocol ≠ none
  distinct : session.consumer.name ≠ session.provider.name
  announced : IsMask session.candidateGenerationAnnouncedBy
  initiator : session.candidateGenerationAnnouncedBy &&& 1 ≠ 0 ↔ session.candidateDigests.1 ≠ none
  responder : session.candidateGenerationAnnouncedBy &&& 2 ≠ 0 ↔ session.candidateDigests.2 ≠ none
  requested : IsMask session.relay.requestedBy
  datagram : ∀ {datagram}, session.relay.datagram = some datagram →
    session.metadata.protocol ≠ none ∧ datagram = decide (session.metadata.protocol = some .UDP)

theorem Coherent.core (h : Coherent id session) (hc : SameCore session session') : Coherent id session' := by
  constructor
  · rw [hc.metadata]; exact h.sessionId
  · rw [hc.state]; exact h.stateId
  · rw [hc.state, hc.metadata]; exact h.accepted
  · rw [hc.consumer, hc.provider]; exact h.distinct
  · rw [hc.announced]; exact h.announced
  · rw [hc.announced, hc.digests]; exact h.initiator
  · rw [hc.announced, hc.digests]; exact h.responder
  · rw [hc.relay]; exact h.requested
  · rw [hc.relay, hc.metadata]; exact h.datagram

theorem coherent_new {plan : RequestPlan} (hr : s.registry.Consistent)
    (h : Requested c s now authenticated envelope plan) :
    Coherent envelope.sessionId (newSession s.registry now envelope plan) := by
  obtain ⟨active, hactive, hprovider⟩ := h.active
  obtain ⟨runtime, hruntime, _, rfl⟩ := ClientRegistry.activeControlSession_eq_some hactive
  have hname : plan.provider.name = envelope.target := by
    rw [hprovider]
    exact (hr.named hruntime).1
  have hdistinct : plan.consumer.name ≠ plan.provider.name := by
    rw [h.consumer, hname]
    exact h.other.symm
  exact {
    sessionId := rfl
    stateId := by rw [newSession, h.state]
    accepted := by simp [newSession, h.state]
    distinct := hdistinct
    announced := .inl rfl
    initiator := by simp [newSession]
    responder := by simp [newSession]
    requested := .inl rfl
    datagram := fun hd => nomatch hd }

theorem Coherent.decided {plan : DecisionPlan} (h : Coherent id plan.session)
    (hd : Decided s now authenticated envelope plan) : Coherent id (decidedSession plan) := by
  have hnone : plan.session.metadata.protocol = none := by
    by_contra hprotocol
    have hphase := h.accepted.mpr hprotocol
    rw [hd.phase] at hphase
    cases hphase
  have hdatagram : plan.session.relay.datagram = none := by
    cases hd' : plan.session.relay.datagram with
    | none => rfl
    | some datagram => exact absurd hnone (h.datagram hd').1
  rw [decidedSession]
  dsimp only
  split
  · next hacc =>
    constructor
    · exact h.sessionId
    · rw [hd.next]; exact h.stateId
    · rw [hd.next, if_pos hacc]
      cases hdecision : plan.decision with
      | accepted protocol => simp [ProviderDecision.protocol]
      | rejected detail => simp [hdecision, ProviderDecision.isAccepted] at hacc
    · exact h.distinct
    · exact h.announced
    · exact h.initiator
    · exact h.responder
    · exact h.requested
    · intro datagram hsome
      rw [hdatagram] at hsome
      cases hsome
  · next hacc =>
    constructor
    · exact h.sessionId
    · rw [hd.next]; exact h.stateId
    · rw [hd.next, if_neg hacc]
      simp [hnone]
    · exact h.distinct
    · exact h.announced
    · exact h.initiator
    · exact h.responder
    · exact h.requested
    · exact h.datagram

theorem Coherent.admitted (h : Coherent id session) : Coherent id (admittedSession now frame session) where
  sessionId := h.sessionId
  stateId := h.stateId
  accepted := h.accepted
  distinct := h.distinct
  announced := h.announced
  initiator := h.initiator
  responder := h.responder
  requested := by
    rw [admittedSession, (admitFrame_fields session.relay now _).1]
    exact h.requested
  datagram := by
    rw [admittedSession, (admitFrame_fields session.relay now _).2]
    exact h.datagram

theorem Coherent.sender (h : Coherent id session) {identity : AuthenticatedClient} {target : SessionOwner}
    (hb : Between session identity target) :
    identity.name = session.consumer.name ↔ participantBit session identity = 1 := by
  rcases hb with ⟨hm, _⟩ | ⟨hm, hp, _⟩
  · rw [participantBit, if_pos hm]
    exact ⟨fun _ => rfl, fun _ => hm.1.symm⟩
  · rw [participantBit, if_neg hm]
    constructor
    · intro hname
      exact absurd (hname.symm.trans hp.1.symm) h.distinct
    · intro hbit
      exact absurd hbit (by decide)

section Forward

variable {plan : ForwardPlan}

theorem candidateDigest_eq (set : CandidateSetV2) (h : envelope.payload = .candidateSetV2 set) :
    c.candidateDigest envelope = some (c.sha256 (RendezvousFormat.candidateSetV2.write set)) := by
  simp only [candidateDigest, h]

theorem candidateDigest_eq_none (h : ∀ set, envelope.payload ≠ .candidateSetV2 set) :
    c.candidateDigest envelope = none := by
  rw [candidateDigest]
  split
  · next set hset => exact absurd hset (h set)
  · rfl

/-- A noted digest goes with the bit of its sender. -/
theorem noted_digests {x p : UInt8} (digest : Vector UInt8 32)
    (digests : Option (Vector UInt8 32) × Option (Vector UInt8 32)) {sent : Prop} [Decidable sent]
    (hx : IsMask x) (hp : IsBit p) (hsent : sent ↔ p = 1)
    (h1 : x &&& 1 ≠ 0 ↔ digests.1 ≠ none) (h2 : x &&& 2 ≠ 0 ↔ digests.2 ≠ none) :
    let noted := if sent then (some digest, digests.2) else (digests.1, some digest)
    ((x ||| p) &&& 1 ≠ 0 ↔ noted.1 ≠ none) ∧ ((x ||| p) &&& 2 ≠ 0 ↔ noted.2 ≠ none) := by
  rw [and_or_ne_zero hx hp 1 (.inl rfl), and_or_ne_zero hx hp 2 (.inr rfl)]
  rcases hp with rfl | rfl
  · have hs : sent := hsent.mpr rfl
    simp [hs, h2]
  · have hs : ¬sent := fun hs => absurd (hsent.mp hs) (by decide)
    simp [hs, h1]

theorem Coherent.forwarded_digests (h : Coherent id plan.session) (hf : Forwarding s now authenticated envelope plan) :
    let next := forwardedSession c now authenticated envelope plan
    IsMask next.candidateGenerationAnnouncedBy ∧
      (next.candidateGenerationAnnouncedBy &&& 1 ≠ 0 ↔ next.candidateDigests.1 ≠ none) ∧
      (next.candidateGenerationAnnouncedBy &&& 2 ≠ 0 ↔ next.candidateDigests.2 ≠ none) := by
  obtain ⟨_, _, _, _, hannounced, _, hdigests⟩ := forwardedSession_fields c now authenticated envelope plan
  have hbit : IsBit plan.participant := hf.participant ▸ isBit_participantBit _ _
  have hsender : authenticated.identity.name = plan.session.consumer.name ↔ plan.participant = 1 :=
    hf.participant ▸ h.sender hf.between
  have hcase := hf.generation
  dsimp only
  rw [hannounced, hdigests, announcedSession_digests]
  generalize plan.generationUpdate = update at hcase
  cases hcase with
  | kept hset _ =>
      rw [candidateDigest_eq_none hset]
      exact ⟨h.announced, h.initiator, h.responder⟩
  | announced set hset _ _ _ =>
      rw [candidateDigest_eq set hset]
      exact ⟨h.announced.or hbit, noted_digests _ _ h.announced hbit hsender h.initiator h.responder⟩
  | advanced set hset _ _ _ _ _ =>
      rw [candidateDigest_eq set hset]
      have hnoted := noted_digests (x := 0) (p := plan.participant)
        (c.sha256 (RendezvousFormat.candidateSetV2.write set)) (none, none) (.inl rfl) hbit hsender (by simp) (by simp)
      rw [UInt8.zero_or] at hnoted
      exact ⟨hbit.isMask, hnoted⟩

theorem Coherent.announcedRelay (h : Coherent id plan.session) (now : Moment) :
    IsMask (announcedRelay now plan).requestedBy ∧ ∀ {datagram}, (Coordinator.announcedRelay now plan).datagram =
      some datagram → plan.session.metadata.protocol ≠ none ∧
        datagram = decide (plan.session.metadata.protocol = some .UDP) := by
  rw [Coordinator.announcedRelay]
  split
  · refine ⟨.inl rfl, ?_⟩
    intro datagram hd
    exact nomatch hd
  · exact ⟨h.requested, h.datagram⟩

theorem Coherent.forwarded (h : Coherent id plan.session) (hf : Forwarding s now authenticated envelope plan) :
    Coherent id (forwardedSession c now authenticated envelope plan) := by
  obtain ⟨hmetadata, hconsumer, hprovider, hstate, _⟩ := forwardedSession_fields c now authenticated envelope plan
  obtain ⟨hmask, hinitiator, hresponder⟩ := h.forwarded_digests (c := c) hf
  have hrelay := forwardedSession_relay c now authenticated envelope plan
  have hbit : IsBit plan.participant := hf.participant ▸ isBit_participantBit _ _
  obtain ⟨hrequested, hdatagram⟩ := h.announcedRelay now
  exact {
    sessionId := by rw [hmetadata]; exact h.sessionId
    stateId := by rw [hstate, hf.next]; exact h.stateId
    accepted := by rw [hstate, hmetadata, hf.next]; exact h.accepted
    distinct := by rw [hconsumer, hprovider]; exact h.distinct
    announced := hmask
    initiator := hinitiator
    responder := hresponder
    requested := by
      rw [hrelay]
      rcases relayPlan_eq_ok hf.relay with ⟨_, hnone⟩ | ⟨request, _, _, hsome⟩
      · rw [hnone]
        exact hrequested
      · rw [hsome]
        exact hrequested.or hbit
    datagram := by
      intro datagram
      rw [hrelay, hmetadata]
      rcases relayPlan_eq_ok hf.relay with ⟨_, hnone⟩ | ⟨request, _, hdata, hsome⟩
      · rw [hnone]
        exact hdatagram
      · rw [hsome]
        intro hd
        exact ⟨hf.accepted, (Option.some.inj hd).symm.trans hdata⟩ }

end Forward

/-- Every active session is coherent, under a consistent registry. -/
structure Kept (s : Server) : Prop where
  registry : s.registry.Consistent
  coherent : ∀ {id session}, s.state.activeSession id = some session → Coherent id session

theorem Kept.change (h : Kept s) (hs : Change c timely s s') : Kept s' := by
  refine ⟨registry_consistent_change h.registry hs, ?_⟩
  intro id session hactive
  cases hs with
  | registry r hr => exact h.coherent hactive
  | opened hplan =>
      rcases active_open hactive with ⟨rfl, rfl⟩ | ⟨_, hold⟩
      · exact coherent_new h.registry (requestPlan_eq_ok hplan)
      · exact h.coherent hold
  | decided hplan =>
      have hd := decisionPlan_eq_ok hplan
      rcases active_put hactive with ⟨rfl, rfl⟩ | ⟨_, hold⟩
      · exact (h.coherent hd.session).decided hd
      · exact h.coherent hold
  | forwarded hplan =>
      have hf := forwardPlan_eq_ok hplan
      rcases active_put hactive with ⟨rfl, rfl⟩ | ⟨_, hold⟩
      · exact (h.coherent hf.session).forwarded hf
      · exact h.coherent hold
  | closed =>
      obtain ⟨hne, hput⟩ := active_tombstone hactive
      rcases active_put hput with ⟨heq, _⟩ | ⟨_, hold⟩
      · exact absurd heq hne
      · exact h.coherent hold
  | entombed => exact h.coherent (active_tombstone hactive).2
  | admitted now frame hold =>
      rcases active_put hactive with ⟨rfl, rfl⟩ | ⟨_, hother⟩
      · exact (h.coherent hold).admitted
      · exact h.coherent hother
  | relayed hold =>
      rcases active_put hactive with ⟨rfl, rfl⟩ | ⟨_, hother⟩
      · exact (h.coherent hold).admitted.core relayedSession_core
      · exact h.coherent hother
  | flushed now hold =>
      rcases active_put hactive with ⟨rfl, rfl⟩ | ⟨_, hother⟩
      · exact (h.coherent hold).core flushSession_core
      · exact h.coherent hother
  | discarded => exact h.coherent hactive
  | purged => exact h.coherent (active_erase hactive).2

theorem kept_new (maxClients : Nat) : Kept (.new maxClients) where
  registry := ClientRegistry.consistent_new maxClients
  coherent h := absurd h (by simp [Server.new, CoordinatorState.default, activeSession])

theorem kept_run {maxClients : Nat} {ops : List Operation} (h : Run (Step c) (.new maxClients) ops s) : Kept s :=
  run_invariant (fun _ _ => Kept.change) h (kept_new maxClients)

end Rustgo.Coordinator
