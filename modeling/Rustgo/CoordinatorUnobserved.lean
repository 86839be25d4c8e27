import Rustgo.CoordinatorWatch
import Rustgo.CoordinatorPlans

namespace Rustgo.Coordinator

open Call Checks Protocol Registry Rendezvous Tables RendezvousCoordinator

variable {c : RendezvousCoordinator} {s t : Server} {r r' : ClientRegistry} {session session' : StoredSession} {w : Watch}
  {now : Moment} {token : Vector UInt8 32} {authenticated : ControlSessionGuard} {envelope : RendezvousEnvelope} {id : SessionId}

section Watched

variable (session) (w)

@[simp] theorem watched_metadata : (session.watched w).metadata = session.metadata := rfl
@[simp] theorem watched_consumer : (session.watched w).consumer = session.consumer := rfl
@[simp] theorem watched_provider : (session.watched w).provider = session.provider := rfl
@[simp] theorem watched_state : (session.watched w).state = session.state := rfl
@[simp] theorem watched_relay : (session.watched w).relay = session.relay := rfl
@[simp] theorem watched_observedPath : (session.watched w).observedPath = w.observedPath := rfl

theorem participantBit_watched (identity : AuthenticatedClient) :
    participantBit (session.watched w) identity = participantBit session identity := rfl

theorem generationPlan_watched (now : Moment) (participant : UInt8) (envelope : RendezvousEnvelope) :
    generationPlan (session.watched w) now participant envelope = generationPlan session now participant envelope := rfl

theorem otherParticipant_watched (identity : AuthenticatedClient) (target : DeviceName) :
    otherParticipant (session.watched w) identity target = otherParticipant session identity target := rfl

theorem relayPlan_watched (participant : UInt8) (envelope : RendezvousEnvelope) :
    relayPlan (session.watched w) participant envelope = relayPlan session participant envelope := rfl

theorem relayTarget_watched (authenticated : ControlSessionGuard) (frame : PeerRelayFrame) :
    relayTarget (session.watched w) authenticated frame = relayTarget session authenticated frame := rfl

end Watched

/-- The kind of path that a transport belongs to. -/
def pathOf (transport : CandidateTransport) : SessionPath := if transport = .relay then .p2pFallback else .p2pDirect

/-- The envelope passes every other check, and reports a path of another kind than
the one that the session has shown to the sink. -/
def Disputed (t : Server) (now : Moment) (authenticated : ControlSessionGuard) (envelope : RendezvousEnvelope) : Prop :=
  ∃ result transport session path, envelope.payload = .connectivityResult result ∧ result.connected = true ∧
    result.transport = some transport ∧ t.registry.observabilityEnabled = true ∧
    t.state.activeSession envelope.sessionId = some session ∧ session.observedPath = some path ∧ path ≠ pathOf transport ∧
    validateOrigin t now authenticated envelope = .ok () ∧ now.unixSecs < session.metadata.expiresUnixSecs ∧
    session.metadata.protocol ≠ none ∧ (∃ target, otherParticipant session authenticated.identity envelope.target = .ok target) ∧
    ∃ next, session.state.acceptMetadata envelope.sessionId envelope.step envelope.generation envelope.expiresUnixSecs
      now.unixSecs = .ok next

/-- Two plans for one envelope. Without a sink no path is noted. -/
def ForwardLike (p q : ForwardPlan) : Prop :=
  p.observedPath = none ∧ ∃ w path, q = { p with session := p.session.watched w, observedPath := path }

theorem Alike.validateOrigin_eq (h : Alike s t) : validateOrigin t now authenticated envelope = validateOrigin s now authenticated envelope := by
  rw [validateOrigin, validateOrigin, h.registry.eq]
  rfl

theorem matches_eq (r : Except RendezvousErrorCode α) : Matches Eq r r := .refl (fun _ => rfl) r

theorem RegistryLike.observabilityEnabled (h : RegistryLike r r') : r.observabilityEnabled = false := by
  rw [ClientRegistry.observabilityEnabled, h.plain]
  rfl

theorem require_no_path (session : StoredSession) : (do
    require (∀ p ∈ (none : Option SessionPath), ∀ current ∈ session.observedPath, current = p) RendezvousErrorCode.invalidState
    pure (none : Option SessionPath)) = .ok none := by
  rw [require_of fun p hp => by cases hp]
  rfl

theorem observedPathPlan_plain {result : ConnectivityResult} {transport : CandidateTransport} (hr : r.observabilityEnabled = false)
    (session : StoredSession) (hresult : envelope.payload = .connectivityResult result) (hconnected : result.connected = true)
    (htransport : result.transport = some transport) : observedPathPlan r session envelope = .ok none := by
  rw [observedPathPlan, reportedPath, hresult]
  simp only [hconnected, htransport, if_true, okOr, ok_bind, hr, Bool.false_eq_true, if_false, pure_bind, require_no_path]

theorem observedPathPlan_refused {result : ConnectivityResult} {transport : CandidateTransport} {path : SessionPath}
    (hr : r.observabilityEnabled = true) (hresult : envelope.payload = .connectivityResult result) (hconnected : result.connected = true)
    (htransport : result.transport = some transport) (hseen : session.observedPath = some path) (hne : path ≠ pathOf transport) :
    observedPathPlan r session envelope = .error .invalidState := by
  have hrefused : ¬∀ p ∈ some (pathOf transport), ∀ current ∈ session.observedPath, current = p := fun hall => hne (hall _ rfl _ hseen)
  rw [observedPathPlan, reportedPath, hresult]
  simp only [hconnected, htransport, if_true, okOr, ok_bind, hr, pure_bind]
  rw [pathOf] at hrefused
  rw [require, if_neg hrefused]
  rfl

/-- A path that is reported counts only where there is a sink, and is refused only
where it is of another kind than the first. -/
theorem observedPathPlan_cases (hr : RegistryLike r r') (session : StoredSession) (w : Watch) (envelope : RendezvousEnvelope) :
    Matches (fun path _ => path = none) (observedPathPlan r session envelope) (observedPathPlan r' (session.watched w) envelope) ∨
      ∃ result transport path, envelope.payload = .connectivityResult result ∧ result.connected = true ∧
        result.transport = some transport ∧ r'.observabilityEnabled = true ∧ w.observedPath = some path ∧ path ≠ pathOf transport := by
  have hplain := hr.observabilityEnabled
  rw [observedPathPlan, observedPathPlan, reportedPath, reportedPath]
  split
  · next result hpayload =>
    split
    · next hconnected =>
      cases htransport : result.transport with
      | none => exact .inl (.error _)
      | some transport =>
          simp only [okOr, ok_bind, hplain, Bool.false_eq_true, if_false, pure_bind, require_no_path]
          cases hsink : r'.observabilityEnabled with
          | false =>
              simp only [Bool.false_eq_true, if_false, require_no_path]
              exact .inl (.ok rfl)
          | true =>
              simp only [if_true]
              by_cases hpath : ∀ p ∈ some (pathOf transport), ∀ current ∈ (session.watched w).observedPath, current = p
              · left
                rw [pathOf] at hpath
                rw [require_of hpath]
                exact .ok rfl
              · right
                simp only [Option.mem_some_iff, forall_eq', not_forall] at hpath
                obtain ⟨path, hseen, hne⟩ := hpath
                exact ⟨result, transport, path, hpayload, hconnected, htransport, trivial, hseen, hne⟩
    · left
      refine .andThen fun path hpath => ?_
      simp only [bind_eq_ok, pure_eq_ok] at hpath
      obtain ⟨-, -, rfl⟩ := hpath
      rw [require_no_path, require_no_path]
      exact .ok rfl
  · exact .inl (.ok rfl)

theorem forwardPlan_matches (h : Alike s t) (hundisputed : ¬Disputed t now authenticated envelope) :
    Matches ForwardLike (forwardPlan s now authenticated envelope) (forwardPlan t now authenticated envelope) := by
  rw [forwardPlan, forwardPlan, h.validateOrigin_eq]
  refine .andThen fun _ horigin => .andThen fun _ hpayload => .andThen fun message hmessage => ?_
  have hactive := h.state.activeSession envelope.sessionId
  generalize s.state.activeSession envelope.sessionId = x at hactive ⊢
  generalize hsession : t.state.activeSession envelope.sessionId = y at hactive ⊢
  cases hactive with
  | none => exact .error _
  | @some session _ hlike =>
      obtain ⟨w, rfl⟩ := hlike
      simp only [okOr, ok_bind, watched_metadata, otherParticipant_watched, participantBit_watched, generationPlan_watched,
        relayPlan_watched]
      refine .andThen fun _ htimely => .andThen fun _ hprotocol => .andThen fun target htarget => .andThen ?_
      rintro ⟨state, update⟩ hgeneration
      refine .andThen fun next hnext => .andThen fun relay hrelay => ?_
      obtain hmatches | ⟨result, transport, path, hresult, hconnected, htransport, hsink, hseen, hne⟩ :=
        observedPathPlan_cases h.registry session w envelope
      · refine hmatches.bind fun path path' hpath => .ok ⟨hpath, w, path', ?_⟩
        rfl
      · refine absurd ⟨result, transport, _, path, hresult, hconnected, htransport, hsink, hsession, hseen, hne, ?_, ?_, ?_, ?_⟩
          hundisputed
        · rw [h.validateOrigin_eq, horigin]
        · exact require_eq_ok.mp htimely
        · exact require_eq_ok.mp hprotocol
        · refine ⟨⟨target, htarget⟩, next, ?_⟩
          simp only [generationPlan, hresult, pure_eq_ok, Prod.mk.injEq] at hgeneration
          obtain ⟨rfl, -⟩ := hgeneration
          exact orFail_eq_ok.mp hnext

/-- What one server refuses for its sink, the other forwards if it can. -/
theorem forwardPlan_disputed (h : Alike s t) (hdisputed : Disputed t now authenticated envelope) :
    forwardPlan t now authenticated envelope = .error .invalidState ∧ ∃ plan, forwardPlan s now authenticated envelope = .ok plan := by
  obtain ⟨result, transport, session', path, hresult, hconnected, htransport, hsink, hsession, hseen, hne, horigin, htimely,
    hprotocol, ⟨target, htarget⟩, next, hnext⟩ := hdisputed
  obtain ⟨message, hmessage⟩ := toProtocolMessage_eq_ok envelope
  have hpayload : IsForwardable envelope.payload := by
    rw [hresult]
    trivial
  have hactive := h.state.activeSession envelope.sessionId
  rw [hsession] at hactive
  generalize hx : s.state.activeSession envelope.sessionId = x at hactive
  cases hactive with
  | @some session _ hlike =>
      obtain ⟨w, rfl⟩ := hlike
      have hgeneration (participant : UInt8) : generationPlan session now participant envelope = .ok (session.state, none) := by
        rw [generationPlan, hresult]
        rfl
      have hrelay (participant : UInt8) : relayPlan session participant envelope = .ok none := by
        rw [relayPlan, hresult]
        rfl
      have hpath := observedPathPlan_plain h.registry.observabilityEnabled session hresult hconnected htransport
      have hpath' := observedPathPlan_refused hsink hresult hconnected htransport hseen hne
      refine ⟨?_, ⟨session, participantBit session authenticated.identity, target, next, none, none, none, message⟩, ?_⟩
      · simp only [watched_state] at hnext
        simp only [forwardPlan, horigin, hmessage, hsession, okOr, orFail, ok_bind, require_of hpayload, require_of htimely,
          require_of hprotocol, htarget, generationPlan_watched, hgeneration, hnext, relayPlan_watched, hrelay, hpath']
        rfl
      · rw [h.validateOrigin_eq] at horigin
        simp only [watched_metadata, watched_state, otherParticipant_watched] at htimely hprotocol htarget hnext
        simp only [forwardPlan, horigin, hmessage, hx, okOr, orFail, ok_bind, require_of hpayload, require_of htimely,
          require_of hprotocol, htarget, hgeneration, hnext, hrelay, hpath]
        rfl

section Calls

variable {identity : AuthenticatedClient} {owner : SessionOwner} {message : Message} {frame : PeerRelayFrame} {order : List SessionId}

/-- The same call on both servers, whatever it returns. -/
abbrev Mirror (x y : Op Unit) : Prop := Mirrors Alike (fun _ _ => True) x y

theorem Alike.incarnation (h : Alike s t) (id : SessionId) : t.incarnation id = s.incarnation id := by
  rw [Server.incarnation, Server.incarnation, h.history]

theorem note_mirrors (id : SessionId) (event : Nat → HistoryEvent) : Mirror (note id event) (note id event) := by
  refine .update fun s t h => ⟨h.registry, h.state, ?_⟩
  dsimp only
  rw [h.incarnation, h.history]

theorem send_mirrors (permit : Permit) (message : Message) : Mirror (permit.send message) (permit.send message) :=
  .update fun _ _ h => ⟨h.registry.trySend _ _, h.state, h.history⟩

theorem reserve_mirrors (owner : SessionOwner) :
    Mirrors Alike Eq (.read fun s : Server => reserveTo s.registry owner) (.read fun s : Server => reserveTo s.registry owner) := by
  refine .read fun s t h => ?_
  rw [h.registry.reserveTo_eq]
  exact matches_eq _

theorem put_mirrors (hlike : Like session session') (id : SessionId) :
    Mirror (.update fun s => { s with state := s.state.putSession id session })
      (.update fun s => { s with state := s.state.putSession id session' }) :=
  .update fun _ _ h => ⟨h.registry, h.state.putSession hlike id, h.history⟩

theorem sendGrant_mirrors (hlike : Like session session') (grant : Option PunchGrant) :
    Mirror (sendGrant session grant) (sendGrant session' grant) := by
  obtain ⟨w, rfl⟩ := hlike
  cases grant with
  | none => exact .pure trivial
  | some grant =>
      refine (reserve_mirrors session.consumer).bind fun consumer _ heq => ?_
      subst heq
      refine (reserve_mirrors session.provider).bind fun provider _ heq => ?_
      subst heq
      exact (send_mirrors _ _).bind fun _ _ _ => send_mirrors _ _

theorem applyGeneration_watched (session : StoredSession) (w : Watch) (now : Moment) (update : Option GenerationUpdate) :
    applyGeneration (session.watched w) now update = (applyGeneration session now update).watched w := by
  cases update with
  | none => rfl
  | some update =>
      rw [applyGeneration, applyGeneration]
      dsimp only
      split <;> rfl

theorem applyDigest_watched (session : StoredSession) (w : Watch) (sender : DeviceName) (digest : Option (Vector UInt8 32)) :
    applyDigest (session.watched w) sender digest = (applyDigest session sender digest).watched w := by
  cases digest <;> rfl

theorem applyRelay_watched (session : StoredSession) (w : Watch) (update : Option (UInt8 × Bool)) :
    applyRelay (session.watched w) update = (applyRelay session update).watched w := by
  cases update <;> rfl

theorem announcedSession_watched (plan : ForwardPlan) (w : Watch) (path : Option SessionPath) :
    c.announcedSession now authenticated envelope { plan with session := plan.session.watched w, observedPath := path } =
      (c.announcedSession now authenticated envelope plan).watched w := by
  rw [announcedSession, announcedSession, ← applyDigest_watched, ← applyGeneration_watched]
  rfl

/-- What the path adds to a session is for the sink alone. -/
theorem applyPath_like (session : StoredSession) (now : Moment) (path : Option SessionPath) :
    Like session (c.applyPath session now path).1 := by
  unfold applyPath
  split
  · exact ⟨⟨_, _, _, _, _, _⟩, rfl⟩
  · exact .refl session

theorem forwardEnvelope_mirrored (h : Alike s t) (hundisputed : ¬Disputed t now authenticated envelope) :
    Mirrored Alike (fun _ _ => True) (c.forwardEnvelope now token authenticated envelope s)
      (c.forwardEnvelope now token authenticated envelope t) := by
  rw [forwardEnvelope]
  have hread : Mirrored Alike ForwardLike
      ((.read fun s => forwardPlan s now authenticated envelope : Op ForwardPlan) s)
      ((.read fun s => forwardPlan s now authenticated envelope : Op ForwardPlan) t) :=
    .some ⟨h, forwardPlan_matches h hundisputed⟩
  refine hread.bind ?_
  rintro plan _ ⟨hpath, w, path, rfl⟩
  refine (reserve_mirrors plan.target).bind fun permit _ heq => ?_
  subst heq
  dsimp only
  rw [announcedSession_watched, applyRelay_watched]
  generalize applyRelay (c.announcedSession now authenticated envelope plan) plan.relayUpdate = session
  have hplain : c.applyPath session now plan.observedPath = (session, []) := by
    rw [hpath]
    rfl
  have hlike : Like session (c.applyPath (session.watched w) now path).1 := .trans ⟨w, rfl⟩ (applyPath_like _ now path)
  rw [hplain]
  generalize c.applyPath (session.watched w) now path = changed at hlike ⊢
  obtain ⟨session', events⟩ := changed
  refine (put_mirrors hlike envelope.sessionId).bind fun _ _ _ => ?_
  exact Mirrors.bind (.update fun _ _ h => ⟨h.registry.observeAll [] events, h.state, h.history⟩) fun _ _ _ =>
    (send_mirrors _ _).bind fun _ _ _ => (note_mirrors _ _).bind fun _ _ _ => sendGrant_mirrors hlike _

theorem request_mirrors : Mirrors Alike Eq (c.request now authenticated envelope) (c.request now authenticated envelope) := by
  have hplan (s t : Server) (h : Alike s t) : c.requestPlan t now authenticated envelope = c.requestPlan s now authenticated envelope := by
    have hactive (name : DeviceName) : t.registry.activeControlSession name = s.registry.activeControlSession name := by
      rw [h.registry.eq]
      rfl
    rw [requestPlan, requestPlan]
    simp only [h.validateOrigin_eq, hactive, h.state.mem_iff, h.state.len_eq, h.state.deviceCounts, h.registry.reserveTo_eq]
  rw [request]
  refine Mirrors.bind (S := Eq) (.read fun s t h => ?_) fun plan _ heq => ?_
  · rw [hplan s t h]
    exact matches_eq _
  subst heq
  refine Mirrors.bind (.update fun s t h => ?_) fun _ _ _ =>
    (send_mirrors _ _).bind fun _ _ _ => (note_mirrors _ _).bind fun _ _ _ => .pure rfl
  exact ⟨h.registry, h.state.openSession ⟨⟨_, _, _, _, _, _⟩, rfl⟩, h.history⟩

theorem decisionPlan_matches (h : Alike s t) :
    Matches (fun p q : DecisionPlan => ∃ w, q = { p with session := p.session.watched w })
      (decisionPlan s now authenticated envelope) (decisionPlan t now authenticated envelope) := by
  rw [decisionPlan, decisionPlan, h.validateOrigin_eq]
  refine .andThen fun _ _ => .andThen fun decision _ => .andThen fun message _ => ?_
  have hactive := h.state.activeSession envelope.sessionId
  generalize s.state.activeSession envelope.sessionId = x at hactive ⊢
  generalize t.state.activeSession envelope.sessionId = y at hactive ⊢
  cases hactive with
  | none => exact .error _
  | @some session _ hlike =>
      obtain ⟨w, rfl⟩ := hlike
      simp only [okOr, ok_bind, watched_metadata, watched_consumer, watched_provider, watched_state]
      exact .andThen fun _ _ => .andThen fun _ _ => .andThen fun _ _ => .andThen fun _ _ => .ok ⟨w, rfl⟩

theorem providerDecision_mirrors : Mirror (providerDecision now authenticated envelope) (providerDecision now authenticated envelope) := by
  rw [providerDecision]
  refine Mirrors.bind (.read fun _ _ h => decisionPlan_matches h) ?_
  rintro plan _ ⟨w, rfl⟩
  refine (reserve_mirrors plan.session.consumer).bind fun permit _ heq => ?_
  subst heq
  have hdecided : Like (decidedSession plan) (decidedSession { plan with session := plan.session.watched w }) := by
    refine ⟨w, ?_⟩
    rw [decidedSession, decidedSession]
    dsimp only
    split <;> rfl
  refine (put_mirrors hdecided envelope.sessionId).bind fun _ _ _ => ?_
  dsimp only
  split
  · exact (send_mirrors _ _).bind fun _ _ _ => (note_mirrors _ _).bind fun _ _ _ => .pure trivial
  · exact Mirrors.bind (.update fun _ _ h => ⟨h.registry, (h.state.tombstoneSession _).1, h.history⟩) fun _ _ _ =>
      (send_mirrors _ _).bind fun _ _ _ => (note_mirrors _ _).bind fun _ _ _ => note_mirrors _ _

theorem closePlan_matches (h : Alike s t) :
    Matches (fun p q : ClosePlan => ∃ w, q = { p with session := p.session.watched w })
      (closePlan s now authenticated envelope) (closePlan t now authenticated envelope) := by
  rw [closePlan, closePlan, h.validateOrigin_eq]
  refine .andThen fun _ _ => .andThen fun _ _ => .andThen fun message _ => ?_
  have hactive := h.state.activeSession envelope.sessionId
  generalize s.state.activeSession envelope.sessionId = x at hactive ⊢
  generalize t.state.activeSession envelope.sessionId = y at hactive ⊢
  cases hactive with
  | none => exact .error _
  | @some session _ hlike =>
      obtain ⟨w, rfl⟩ := hlike
      simp only [okOr, ok_bind, watched_metadata, watched_state, otherParticipant_watched]
      exact .andThen fun _ _ => .andThen fun _ _ => .andThen fun _ _ => .ok ⟨w, rfl⟩

theorem closeSession_mirrors : Mirror (c.closeSession now authenticated envelope) (c.closeSession now authenticated envelope) := by
  rw [closeSession]
  refine Mirrors.bind (.read fun _ _ h => closePlan_matches h) ?_
  rintro plan _ ⟨w, rfl⟩
  refine (reserve_mirrors plan.target).bind fun permit _ heq => ?_
  subst heq
  have hlike : Like { plan.session with state := plan.next } { plan.session.watched w with state := plan.next } := ⟨w, rfl⟩
  refine (put_mirrors hlike envelope.sessionId).bind fun _ _ _ => Mirrors.bind (.update fun s t h => ?_) fun _ _ _ =>
    (send_mirrors _ _).bind fun _ _ _ => (note_mirrors _ _).bind fun _ _ _ => note_mirrors _ _
  obtain ⟨hstate, hremoved⟩ := h.state.tombstoneSession envelope.sessionId
  generalize s.state.tombstoneSession envelope.sessionId = x at hstate hremoved ⊢
  generalize t.state.tombstoneSession envelope.sessionId = y at hstate hremoved ⊢
  obtain ⟨state, removed⟩ := x
  obtain ⟨state', removed'⟩ := y
  dsimp only at hstate hremoved ⊢
  cases hremoved with
  | none => exact ⟨h.registry, hstate, h.history⟩
  | some hlike => exact ⟨h.registry.observeClose _ _ _ _, hstate, h.history⟩

theorem expireOne_like (h : RegistryLike r r') (hlike : Like session session') :
    RegistryLike (c.expireOne now r session) (c.expireOne now r' session') := by
  obtain ⟨w, rfl⟩ := hlike
  exact ((h.observeClose session _ "expired" now).notice ⟨w, rfl⟩ session.consumer .expired).notice ⟨w, rfl⟩ session.provider .expired

theorem foldl_like {f g : ClientRegistry → StoredSession → ClientRegistry} {xs ys : List StoredSession}
    (hf : ∀ r r' session session', RegistryLike r r' → Like session session' → RegistryLike (f r session) (g r' session'))
    (hxs : List.Forall₂ Like xs ys) (h : RegistryLike r r') : RegistryLike (xs.foldl f r) (ys.foldl g r') := by
  induction hxs generalizing r r' with
  | nil => exact h
  | cons hlike _ ih => exact ih (hf _ _ _ _ h hlike)

theorem expireSessionsBatch_mirrors : Mirror (c.expireSessionsBatch now) (c.expireSessionsBatch now) := by
  rw [expireSessionsBatch]
  refine Mirrors.bind (S := List.Forall₂ Like) (.attempt fun s t h => ?_) fun removed removed' hremoved => ?_
  · refine rel_bind (h.state.expireLoop now.unixSecs expiryMaintenanceBatch) ?_
    rintro ⟨removed, state⟩ ⟨removed', state'⟩ ⟨hremoved, hstate⟩
    exact .some ⟨hremoved, h.registry, hstate, h.history⟩
  · refine .update fun s t h => ⟨?_, h.state, h.history⟩
    exact foldl_like (fun _ _ _ _ hr hlike => expireOne_like hr hlike) hremoved h.registry

theorem flushObservabilityDue_mirrors (order : List SessionId) :
    Mirror (c.flushObservabilityDue now order) (c.flushObservabilityDue now order) := by
  rw [flushObservabilityDue]
  refine .update fun s t h => ?_
  rw [h.registry.observabilityEnabled, if_neg Bool.false_ne_true]
  split
  · exact ⟨h.registry.tryObserveAll_right _, h.state.flushLoop now order, h.history⟩
  · exact h

theorem expireNow_mirrors (order : List SessionId) : Mirror (c.expireNow now order) (c.expireNow now order) := by
  rw [expireNow]
  exact expireSessionsBatch_mirrors.bind fun _ _ _ => flushObservabilityDue_mirrors order

theorem disconnectOne_like (identity : AuthenticatedClient) (h : RegistryLike r r') (hlike : Like session session') :
    RegistryLike (c.disconnectOne identity now r session) (c.disconnectOne identity now r' session') := by
  obtain ⟨w, rfl⟩ := hlike
  exact (h.observeClose session _ "peer-disconnected" now).notice ⟨w, rfl⟩ _ .peerDisconnected

theorem removeDevice_mirrors (identity : AuthenticatedClient) (order : List SessionId) :
    Mirror (c.removeDevice now identity order) (c.removeDevice now identity order) := by
  rw [removeDevice]
  refine .update fun s t h => ?_
  obtain ⟨hremoved, hstate⟩ := h.state.removeLoop identity order
  generalize removeLoop identity order s.state = x at hremoved hstate ⊢
  generalize removeLoop identity order t.state = y at hremoved hstate ⊢
  obtain ⟨removed, state⟩ := x
  obtain ⟨removed', state'⟩ := y
  dsimp only at hremoved hstate ⊢
  refine ⟨?_, hstate, ?_⟩
  · have hsessions : List.Forall₂ Like (removed.map Prod.snd) (removed'.map Prod.snd) :=
      List.forall₂_map_left_iff.mpr (List.forall₂_map_right_iff.mpr (hremoved.imp fun _ _ hpq => hpq.2))
    exact foldl_like (fun _ _ _ _ hr hlike => disconnectOne_like identity hr hlike) hsessions h.registry
  · have hnotes : (removed.map fun p => HistoryEvent.tombstoned p.1 (s.incarnation p.1)) =
        removed'.map fun p => HistoryEvent.tombstoned p.1 (t.incarnation p.1) := by
      rw [← List.forall₂_eq_eq_eq, List.forall₂_map_left_iff, List.forall₂_map_right_iff]
      refine hremoved.imp fun p q hpq => ?_
      rw [hpq.1, h.incarnation]
    rw [h.history, hnotes]

/-- What is counted is for the sink alone. -/
theorem countTraffic_like (session : StoredSession) (authenticated : ControlSessionGuard) (frame : PeerRelayFrame) :
    Like session (countTraffic session authenticated frame) := by
  rw [countTraffic]
  dsimp only
  split
  · exact ⟨⟨_, _, _, _, _, _⟩, rfl⟩
  · split
    · exact ⟨⟨_, _, _, _, _, _⟩, rfl⟩
    · split
      · exact ⟨⟨_, _, _, _, _, _⟩, rfl⟩
      · exact ⟨⟨_, _, _, _, _, _⟩, rfl⟩
      · exact .refl session
      · exact .refl session

theorem relayFrame_mirrors (hlike : Like session session') :
    Mirror (relayFrame now authenticated frame session) (relayFrame now authenticated frame session') := by
  obtain ⟨w, rfl⟩ := hlike
  rw [relayFrame, relayFrame]
  refine Mirrors.bind (S := Eq) (.read fun _ _ _ => matches_eq _) fun target _ heq => ?_
  subst heq
  dsimp only [watched_relay]
  generalize session.relay.admitFrame now frame.ciphertext.bytes.length = admission
  intro s t h
  rw [update_bind, update_bind]
  have hadmitted : Like { session with relay := admission.2 } { session.watched w with relay := admission.2 } := ⟨w, rfl⟩
  have hput : Alike { s with state := s.state.putSession frame.sessionId { session with relay := admission.2 } }
      { t with state := t.state.putSession frame.sessionId { session.watched w with relay := admission.2 } } :=
    ⟨h.registry, h.state.putSession hadmitted _, h.history⟩
  refine Mirrored.read_bind (S := Eq) hput (matches_eq _) fun _ _ _ => ?_
  refine Mirrored.read_bind (S := Eq) hput (matches_eq _) fun message _ heq => ?_
  subst heq
  refine Mirrored.read_bind (S := Eq) hput ?_ fun permit _ heq => ?_
  · dsimp only
    rw [h.registry.reserveTo_eq]
    exact matches_eq _
  subst heq
  rw [update_bind, update_bind]
  refine (send_mirrors permit message).bind (fun _ _ _ => note_mirrors _ _) _ _ ?_
  dsimp only
  rw [h.registry.observabilityEnabled, if_neg Bool.false_ne_true]
  split
  · refine ⟨h.registry, hput.state.putSession_right ?_ (hadmitted.trans (countTraffic_like _ _ _)), h.history⟩
    rw [CoordinatorState.activeSession, CoordinatorState.putSession]
    dsimp only
    rw [Finmap.lookup_insert]
    rfl
  · exact hput

theorem relaySession_matches (h : Alike s t) : Matches (Option.Rel Like) (relaySession s authenticated frame) (relaySession t authenticated frame) := by
  have hid := h.state.sessions frame.sessionId
  rw [relaySession, relaySession]
  generalize s.state.sessions.lookup frame.sessionId = x at hid ⊢
  generalize t.state.sessions.lookup frame.sessionId = y at hid ⊢
  cases hid with
  | none => exact .error _
  | some hrecord =>
      cases hrecord with
      | active hlike => exact .ok (.some hlike)
      | tombstone tombstone => exact .refl (fun session => by cases session <;> constructor; exact .refl _) _

theorem forwardRelayFrame_mirrors : Mirror (c.forwardRelayFrame now authenticated frame) (c.forwardRelayFrame now authenticated frame) := by
  rw [forwardRelayFrame]
  refine Mirrors.bind (S := fun _ _ => True) (.read fun s t h => ?_) fun _ _ _ => expireSessionsBatch_mirrors.bind fun _ _ _ =>
    Mirrors.bind (.read fun _ _ h => relaySession_matches h) fun _ _ hsession => ?_
  · rw [h.registry.eq]
    exact .refl (fun _ => trivial) _
  · cases hsession with
    | none => exact .pure trivial
    | some hlike => exact relayFrame_mirrors hlike

end Calls

end Rustgo.Coordinator
