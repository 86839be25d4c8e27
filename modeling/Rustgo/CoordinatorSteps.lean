import Rustgo.CoordinatorCalls
import Rustgo.CoordinatorUpkeep
import Mathlib.Logic.Relation

namespace Rustgo.Coordinator

open Checks Protocol Registry Rendezvous Tables RendezvousCoordinator

variable {c : RendezvousCoordinator} {s s' : Server} {now : Moment} {authenticated : ControlSessionGuard}
  {envelope : RendezvousEnvelope} {frame : PeerRelayFrame} {token : Vector UInt8 32}

def Server.append (s : Server) (event : HistoryEvent) : Server := { s with history := s.history ++ [event] }

def Server.put (s : Server) (sessionId : SessionId) (session : StoredSession) : Server :=
  { s with state := s.state.putSession sessionId session }

def Server.entomb (s : Server) (sessionId : SessionId) : Server :=
  { s with state := (s.state.tombstoneSession sessionId).1 }

/-- The event of an envelope that the present session passes on. -/
def Server.passes (s : Server) (envelope : RendezvousEnvelope) (authenticated : ControlSessionGuard) (permit : Permit)
    (now : Moment) : HistoryEvent :=
  .forwarded ⟨s.incarnation envelope.sessionId, envelope, authenticated.identity, permit.identity, now⟩

/-- The event of an envelope that opens a session. -/
def Server.opens (s : Server) (envelope : RendezvousEnvelope) (authenticated : ControlSessionGuard) (permit : Permit)
    (now : Moment) : HistoryEvent :=
  .forwarded ⟨s.incarnation envelope.sessionId + 1, envelope, authenticated.identity, permit.identity, now⟩

def forwardedSession (c : RendezvousCoordinator) (now : Moment) (authenticated : ControlSessionGuard)
    (envelope : RendezvousEnvelope) (plan : ForwardPlan) : StoredSession :=
  (c.applyPath (applyRelay (c.announcedSession now authenticated envelope plan) plan.relayUpdate) now
    plan.observedPath).1

theorem request_cases {r : Except RendezvousErrorCode SessionId}
    (h : c.request now authenticated envelope s = some (r, s')) :
    (∃ e, r = .error e ∧ s' = s) ∨ ∃ plan, c.requestPlan s now authenticated envelope = .ok plan ∧
      r = .ok envelope.sessionId ∧ s' = {
        registry := s.registry.trySend plan.permit.identity.name plan.message
        state := openSession s.state (newSession s.registry now envelope plan)
        history := s.history ++ [s.opens envelope authenticated plan.permit now] } := by
  rcases Call.read_bind_cases h with ⟨e, _, hr⟩ | ⟨plan, hplan, hr⟩
  · obtain ⟨rfl, rfl⟩ := Prod.mk.inj hr
    exact .inl ⟨e, rfl, rfl⟩
  · obtain ⟨rfl, rfl⟩ := Prod.mk.inj (Option.some.inj hr)
    exact .inr ⟨plan, hplan, rfl, rfl⟩

theorem request_of_plan {plan : RequestPlan} (hplan : c.requestPlan s now authenticated envelope = .ok plan) :
    c.request now authenticated envelope s = some (.ok envelope.sessionId, {
      registry := s.registry.trySend plan.permit.identity.name plan.message
      state := openSession s.state (newSession s.registry now envelope plan)
      history := s.history ++ [s.opens envelope authenticated plan.permit now] }) := Call.read_bind_eq hplan rfl

theorem providerDecision_cases {r : Except RendezvousErrorCode Unit}
    (h : providerDecision now authenticated envelope s = some (r, s')) :
    (∃ e, r = .error e ∧ s' = s) ∨ ∃ plan permit, decisionPlan s now authenticated envelope = .ok plan ∧
      reserveTo s.registry plan.session.consumer = .ok permit ∧ r = .ok () ∧
      let t := (s.put envelope.sessionId (decidedSession plan)).append (s.passes envelope authenticated permit now)
      let u := if plan.decision.isAccepted then t
        else (t.entomb envelope.sessionId).append (.tombstoned envelope.sessionId (t.incarnation envelope.sessionId))
      s' = { u with registry := s.registry.trySend permit.identity.name plan.message } := by
  rcases Call.read_bind_cases h with ⟨e, _, hr⟩ | ⟨plan, hplan, hr⟩
  · obtain ⟨rfl, rfl⟩ := Prod.mk.inj hr
    exact .inl ⟨e, rfl, rfl⟩
  rcases Call.read_bind_cases hr with ⟨e, _, hr⟩ | ⟨permit, hpermit, hr⟩
  · obtain ⟨rfl, rfl⟩ := Prod.mk.inj hr
    exact .inl ⟨e, rfl, rfl⟩
  refine .inr ⟨plan, permit, hplan, hpermit, ?_⟩
  cases hacc : plan.decision.isAccepted with
  | true =>
      rw [hacc] at hr
      obtain ⟨rfl, rfl⟩ := Prod.mk.inj (Option.some.inj hr)
      exact ⟨rfl, rfl⟩
  | false =>
      rw [hacc] at hr
      obtain ⟨rfl, rfl⟩ := Prod.mk.inj (Option.some.inj hr)
      exact ⟨rfl, rfl⟩

def forwardedEvents (c : RendezvousCoordinator) (now : Moment) (authenticated : ControlSessionGuard)
    (envelope : RendezvousEnvelope) (plan : ForwardPlan) : List ObservationEvent :=
  (c.applyPath (applyRelay (c.announcedSession now authenticated envelope plan) plan.relayUpdate) now
    plan.observedPath).2

/-- The grant that is due once the envelope of a plan is noted. -/
def forwardedGrant (c : RendezvousCoordinator) (now : Moment) (token : Vector UInt8 32)
    (authenticated : ControlSessionGuard) (envelope : RendezvousEnvelope) (plan : ForwardPlan) : Option PunchGrant :=
  punchGrant (c.announcedSession now authenticated envelope plan) now envelope (c.candidateDigest envelope) token

/-- The server once the envelope of a plan is in the queue of its target. -/
def Server.forwardedBy (s : Server) (c : RendezvousCoordinator) (now : Moment) (authenticated : ControlSessionGuard)
    (envelope : RendezvousEnvelope) (plan : ForwardPlan) (permit : Permit) : Server :=
  { (s.put envelope.sessionId (forwardedSession c now authenticated envelope plan)).append
      (s.passes envelope authenticated permit now) with
    registry := (tryObserveAll s.registry (forwardedEvents c now authenticated envelope plan)).trySend
      permit.identity.name plan.message }

theorem forwardEnvelope_cases {r : Except RendezvousErrorCode Unit}
    (h : c.forwardEnvelope now token authenticated envelope s = some (r, s')) :
    (∃ e, r = .error e ∧ s' = s) ∨ ∃ plan permit, forwardPlan s now authenticated envelope = .ok plan ∧
      reserveTo s.registry plan.target = .ok permit ∧
      sendGrant (forwardedSession c now authenticated envelope plan)
        (forwardedGrant c now token authenticated envelope plan)
        (s.forwardedBy c now authenticated envelope plan permit) = some (r, s') := by
  rcases Call.read_bind_cases h with ⟨e, _, hr⟩ | ⟨plan, hplan, hr⟩
  · obtain ⟨rfl, rfl⟩ := Prod.mk.inj hr
    exact .inl ⟨e, rfl, rfl⟩
  rcases Call.read_bind_cases hr with ⟨e, _, hr⟩ | ⟨permit, hpermit, hr⟩
  · obtain ⟨rfl, rfl⟩ := Prod.mk.inj hr
    exact .inl ⟨e, rfl, rfl⟩
  exact .inr ⟨plan, permit, hplan, hpermit, hr⟩

theorem forwardEnvelope_of_plan {plan : ForwardPlan} {permit : Permit}
    (hplan : forwardPlan s now authenticated envelope = .ok plan)
    (hpermit : reserveTo s.registry plan.target = .ok permit) :
    c.forwardEnvelope now token authenticated envelope s =
      sendGrant (forwardedSession c now authenticated envelope plan)
        (forwardedGrant c now token authenticated envelope plan)
        (s.forwardedBy c now authenticated envelope plan permit) :=
  Call.read_bind_eq hplan (Call.read_bind_eq hpermit rfl)

theorem sendGrant_cases {session : StoredSession} {grant : Option PunchGrant} {r : Except RendezvousErrorCode Unit}
    (h : sendGrant session grant s = some (r, s')) :
    (r = .ok () ∧ grant = none ∧ s' = s) ∨
      (∃ e, r = .error e ∧ s' = s ∧ grant ≠ none ∧
        ∀ p q, reserveTo s.registry session.consumer = .ok p → reserveTo s.registry session.provider ≠ .ok q) ∨
      ∃ g p q, r = .ok () ∧ grant = some g ∧ reserveTo s.registry session.consumer = .ok p ∧
        reserveTo s.registry session.provider = .ok q ∧
        let r := s.registry.trySend p.identity.name (.punchGrant g)
        s' = { s with registry := r.trySend q.identity.name (.punchGrant g) } := by
  cases grant with
  | none =>
      obtain ⟨rfl, rfl⟩ := Prod.mk.inj (Option.some.inj h)
      exact .inl ⟨rfl, rfl, rfl⟩
  | some g =>
      rcases Call.read_bind_cases h with ⟨e, he, hr⟩ | ⟨p, hp, hr⟩
      · obtain ⟨rfl, rfl⟩ := Prod.mk.inj hr
        refine .inr (.inl ⟨e, rfl, rfl, by simp, ?_⟩)
        intro p q hp
        rw [he] at hp
        exact nomatch hp
      rcases Call.read_bind_cases hr with ⟨e, he, hr⟩ | ⟨q, hq, hr⟩
      · obtain ⟨rfl, rfl⟩ := Prod.mk.inj hr
        refine .inr (.inl ⟨e, rfl, rfl, by simp, ?_⟩)
        intro p q _ hq
        rw [he] at hq
        exact nomatch hq
      obtain ⟨rfl, rfl⟩ := Prod.mk.inj (Option.some.inj hr)
      exact .inr (.inr ⟨g, p, q, rfl, rfl, hp, hq, rfl⟩)

/-- The server once the closing envelope of a plan is queued and the session entombed. -/
def Server.closedBy (s : Server) (authenticated : ControlSessionGuard) (envelope : RendezvousEnvelope)
    (plan : ClosePlan) (permit : Permit) (now : Moment) : Server :=
  let t := (s.put envelope.sessionId { plan.session with state := plan.next }).append
    (s.passes envelope authenticated permit now)
  (t.entomb envelope.sessionId).append (.tombstoned envelope.sessionId (t.incarnation envelope.sessionId))

theorem closeSession_cases {r : Except RendezvousErrorCode Unit}
    (h : c.closeSession now authenticated envelope s = some (r, s')) :
    (∃ e, r = .error e ∧ s' = s) ∨ ∃ plan permit, closePlan s now authenticated envelope = .ok plan ∧
      reserveTo s.registry plan.target = .ok permit ∧ r = .ok () ∧
      let t := s.put envelope.sessionId { plan.session with state := plan.next }
      let observed := (t.state.tombstoneSession envelope.sessionId).2.elim s.registry fun session =>
        observeP2pClose c s.registry session "closed" now
      s' = { s.closedBy authenticated envelope plan permit now with
        registry := observed.trySend permit.identity.name plan.message } := by
  rcases Call.read_bind_cases h with ⟨e, _, hr⟩ | ⟨plan, hplan, hr⟩
  · obtain ⟨rfl, rfl⟩ := Prod.mk.inj hr
    exact .inl ⟨e, rfl, rfl⟩
  rcases Call.read_bind_cases hr with ⟨e, _, hr⟩ | ⟨permit, hpermit, hr⟩
  · obtain ⟨rfl, rfl⟩ := Prod.mk.inj hr
    exact .inl ⟨e, rfl, rfl⟩
  obtain ⟨rfl, rfl⟩ := Prod.mk.inj (Option.some.inj hr)
  exact .inr ⟨plan, permit, hplan, hpermit, rfl, rfl⟩

theorem closeSession_of_plan {plan : ClosePlan} {permit : Permit} (hplan : closePlan s now authenticated envelope = .ok plan)
    (hpermit : reserveTo s.registry plan.target = .ok permit) :
    ∃ s', c.closeSession now authenticated envelope s = some (.ok (), s') :=
  ⟨_, Call.read_bind_eq hplan (Call.read_bind_eq hpermit rfl)⟩

theorem expireSessionsBatch_cases {r : Except RendezvousErrorCode Unit}
    (h : c.expireSessionsBatch now s = some (r, s')) :
    ∃ removed state, s.state.expireLoop now.unixSecs expiryMaintenanceBatch = some (removed, state) ∧ r = .ok () ∧
      s' = { s with state, registry := removed.foldl (c.expireOne now) s.registry } := by
  cases hl : s.state.expireLoop now.unixSecs expiryMaintenanceBatch with
  | none =>
      simp [expireSessionsBatch, Call.bind_apply, Call.attempt, hl] at h
  | some p =>
      simp only [expireSessionsBatch, Call.bind_apply, Call.attempt, hl, Option.bind_eq_bind, Option.bind_some,
        Option.pure_def, Option.map_some, Call.update_apply, Option.some.injEq, Prod.mk.injEq] at h
      exact ⟨p.1, p.2, rfl, h.1.symm, h.2.symm⟩

def admittedSession (now : Moment) (frame : PeerRelayFrame) (session : StoredSession) : StoredSession :=
  { session with relay := (session.relay.admitFrame now frame.ciphertext.bytes.length).2 }

def relayedSession (r : ClientRegistry) (now : Moment) (authenticated : ControlSessionGuard) (frame : PeerRelayFrame)
    (session : StoredSession) : StoredSession :=
  if r.observabilityEnabled then countTraffic (admittedSession now frame session) authenticated frame
  else admittedSession now frame session

/-- The event of a frame that the present session relays. -/
def Server.relays (s : Server) (now : Moment) (authenticated : ControlSessionGuard) (frame : PeerRelayFrame)
    (session : StoredSession) (permit : Permit) : HistoryEvent :=
  .relayed ⟨s.incarnation frame.sessionId, frame, authenticated.identity, permit.identity, now,
    (admittedSession now frame session).relay.windowStarted⟩

theorem relayFrame_cases {session : StoredSession} {r : Except RendezvousErrorCode Unit}
    (h : relayFrame now authenticated frame session s = some (r, s')) :
    (∃ e, r = .error e ∧ s' = s) ∨
    (∃ e, r = .error e ∧ s' = s.put frame.sessionId (admittedSession now frame session)) ∨
    ∃ target permit message, relayTarget session authenticated frame = .ok target ∧
      (session.relay.admitFrame now frame.ciphertext.bytes.length).1 = true ∧ relayMessage frame = .ok message ∧
      reserveTo s.registry target = .ok permit ∧ r = .ok () ∧
      s' = { (s.put frame.sessionId (relayedSession s.registry now authenticated frame session)).append
          (s.relays now authenticated frame session permit) with
        registry := s.registry.trySend permit.identity.name message } := by
  rcases Call.read_bind_cases h with ⟨e, _, hr⟩ | ⟨target, htarget, hr⟩
  · obtain ⟨rfl, rfl⟩ := Prod.mk.inj hr
    exact .inl ⟨e, rfl, rfl⟩
  refine .inr ?_
  simp only [Call.update_bind] at hr
  rcases Call.read_bind_cases hr with ⟨e, _, hr⟩ | ⟨_, hadm, hr⟩
  · obtain ⟨rfl, rfl⟩ := Prod.mk.inj hr
    exact .inl ⟨e, rfl, rfl⟩
  rcases Call.read_bind_cases hr with ⟨e, _, hr⟩ | ⟨message, hmessage, hr⟩
  · obtain ⟨rfl, rfl⟩ := Prod.mk.inj hr
    exact .inl ⟨e, rfl, rfl⟩
  rcases Call.read_bind_cases hr with ⟨e, _, hr⟩ | ⟨permit, hpermit, hr⟩
  · obtain ⟨rfl, rfl⟩ := Prod.mk.inj hr
    exact .inl ⟨e, rfl, rfl⟩
  refine .inr ⟨target, permit, message, htarget, require_eq_ok.mp hadm, orFail_eq_ok.mp hmessage, hpermit, ?_⟩
  obtain ⟨rfl, rfl⟩ := Prod.mk.inj (Option.some.inj hr)
  refine ⟨rfl, ?_⟩
  cases henabled : s.registry.observabilityEnabled with
  | false =>
      simp only [henabled, Bool.false_eq_true, if_false, relayedSession]
      rfl
  | true =>
      simp only [henabled, if_true, relayedSession, Server.put, Server.append, CoordinatorState.putSession,
        Finmap.insert_insert]
      rfl

theorem relayFrame_of_target {session : StoredSession} {target : SessionOwner} {permit : Permit}
    (ht : relayTarget session authenticated frame = .ok target)
    (ha : (session.relay.admitFrame now frame.ciphertext.bytes.length).1 = true)
    (hp : reserveTo s.registry target = .ok permit) :
    ∃ t, relayFrame now authenticated frame session s = some (.ok (), t) ∧
      t.history = s.history ++ [s.relays now authenticated frame session permit] := by
  obtain ⟨message, hmessage⟩ := relayMessage_eq_ok frame
  refine ⟨_, Call.read_bind_eq ht (Call.update_bind_eq (Call.read_bind_eq (require_of ha)
    (Call.read_bind_eq (orFail_eq_ok.mpr hmessage) (Call.read_bind_eq hp rfl)))), ?_⟩
  dsimp only
  split
  · rfl
  · rfl

theorem forwardRelayFrame_of_batch {t : Server} {session : StoredSession}
    (hactive : s.registry.isActiveSession authenticated.identity = true)
    (hbatch : c.expireSessionsBatch now s = some (.ok (), t))
    (hl : t.state.sessions.lookup frame.sessionId = some (.active session)) :
    c.forwardRelayFrame now authenticated frame s = relayFrame now authenticated frame session t := by
  have hsession : relaySession t authenticated frame = .ok (some session) := by
    simp only [relaySession, hl]
  refine Call.read_bind_eq (require_of hactive) ?_
  exact (Call.bind_of_ok hbatch _).trans (Call.read_bind_eq hsession rfl)

theorem forwardRelayFrame_cases {r : Except RendezvousErrorCode Unit}
    (h : c.forwardRelayFrame now authenticated frame s = some (r, s')) :
    (∃ e, r = .error e ∧ s' = s) ∨ ∃ t, c.expireSessionsBatch now s = some (.ok (), t) ∧
      ((∃ e, r = .error e ∧ s' = t) ∨ (r = .ok () ∧ s' = t) ∨
        ∃ session, t.state.sessions.lookup frame.sessionId = some (.active session) ∧
          relayFrame now authenticated frame session t = some (r, s')) := by
  rcases Call.read_bind_cases h with ⟨e, _, hr⟩ | ⟨_, _, hr⟩
  · obtain ⟨rfl, rfl⟩ := Prod.mk.inj hr
    exact .inl ⟨e, rfl, rfl⟩
  rw [Call.bind_apply] at hr
  obtain ⟨⟨r₁, t⟩, ht, hr⟩ := Option.bind_eq_some_iff.mp hr
  obtain ⟨_, _, _, rfl, _⟩ := expireSessionsBatch_cases ht
  refine .inr ⟨t, ht, ?_⟩
  rcases Call.read_bind_cases hr with ⟨e, _, hr⟩ | ⟨session, hsession, hr⟩
  · obtain ⟨rfl, rfl⟩ := Prod.mk.inj hr
    exact .inl ⟨e, rfl, rfl⟩
  refine .inr ?_
  rw [relaySession] at hsession
  split at hsession
  · next session' hl =>
    obtain rfl := Except.ok.inj hsession
    exact .inr ⟨session', hl, hr⟩
  · split at hsession
    · obtain rfl := Except.ok.inj hsession
      obtain ⟨rfl, rfl⟩ := Prod.mk.inj (Option.some.inj hr)
      exact .inl ⟨rfl, rfl⟩
    · exact nomatch hsession
  · exact nomatch hsession

end Rustgo.Coordinator
