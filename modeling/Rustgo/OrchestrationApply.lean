import Rustgo.CoordinatorPlans
import Rustgo.OrchestrationHandlers

namespace Rustgo.Orchestration

open Call Checks Coordinator Path Protocol Rendezvous Tables Relation

variable {runtime : Runtime} {why : SessionId → Session → IoError → Prop} {follows : Session → Prop}
  {marks : SessionId → Mark → Prop} {s t : Actor} {id : SessionId} {session : Session} {generation : CandidateGeneration}
  {envelope : RendezvousEnvelope}

section Direct

theorem makes_offerAttempt (attempt : DirectAttempt) : Makes runtime why follows marks (offerAttempt id attempt) := by
  apply Makes.bind (makes_editSession (fun _ => .directStarted) fun _ _ => .kept rfl rfl rfl)
  intro _
  apply does_getSession
  intro session
  cases hr : session.recheckReply with
  | some reply =>
      exact Makes.does ((makes_editSession (fun _ => .takeRecheckReply) fun _ _ => .kept rfl rfl rfl).bind fun _ => makes_emit _ rfl rfl)
  | none =>
      refine does_editSession ?_ (fun _ _ _ _ => trivial) fun _ _ _ => .kept rfl rfl rfl
      intro s session' hs hl
      obtain rfl : session' = session := Option.some.inj (hl.symm.trans hs.2)
      exact .directAttempt attempt

theorem makes_prepareDirect (session : Session) (candidate : Candidate) :
    Makes runtime why follows marks (prepareDirect runtime id session candidate) := by
  apply Makes.bind (makes_read _)
  intro localKey
  apply Makes.bind (makes_editSession (fun _ => .removeLocalEphemeral _) fun _ _ => .kept rfl rfl rfl)
  intro _
  apply Makes.bind (makes_read _)
  intro attempt
  have hrest : Makes runtime why follows marks ((Call.read fun _ => attemptReady runtime attempt) >>= fun _ =>
      offerAttempt id attempt) := (makes_read _).bind fun _ => makes_offerAttempt attempt
  exact Does.ite (fun _ => (makes_editSession (fun _ => .takeQuicSocket) fun _ _ => .kept rfl rfl rfl).bind fun _ => hrest) fun _ => hrest

theorem makes_ensureDirect : Makes runtime why follows marks (ensureDirect runtime id) := by
  apply does_getSession
  intro session
  apply Makes.does
  apply Makes.bind (makes_read _)
  intro p2p
  apply Does.ite fun _ => makes_pure ()
  intro _
  cases bestCandidate session.peerCandidates (directTransport session) with
  | none => exact makes_pure ()
  | some candidate => exact makes_prepareDirect session candidate

end Direct

section Relay

theorem does_editSession_agreed {f : Session → Session} (he : ∀ session, Edit (marks id) session (f session))
    (hown : ∀ session, (f session).localRelayRequested = session.localRelayRequested)
    (hpeer : ∀ session, (f session).peerRelayRequested = session.peerRelayRequested)
    (hpending : ∀ session, (f session).pending = session.pending) :
    Does (Change runtime why follows marks) (·.Agreed id) (editSession id f) fun _ => (·.Agreed id) := by
  refine does_editSession (fun _ session _ _ => he session) ?_
    fun s session _ => ⟨fun h => .inl (hown session ▸ h), fun h => .inl (hpeer session ▸ h),
      fun _ h => .inl (hpending session ▸ h)⟩
  rintro s session ⟨session', hl', hboth⟩ hl
  obtain rfl : session' = session := Option.some.inj (hl'.symm.trans hl)
  exact ⟨_, lookup_put_self, by rwa [hown, hpeer]⟩

theorem does_startWorker (session : Session) :
    Does (Change runtime why follows marks) (·.Agreed id) (startWorker runtime id session) fun _ _ => True := by
  have hread {α : Type} (g : Actor → Except IoError α) : Does (Change runtime why follows marks) (·.Agreed id) (Call.read g)
      fun _ => (·.Agreed id) := Does.read fun _ _ hs _ => hs
  apply Does.bind (hread _)
  intro localKey
  apply Does.bind (does_editSession_agreed (fun _ => .removeLocalEphemeral _) (fun _ => rfl) (fun _ => rfl) fun _ => rfl)
  intro _
  apply Does.bind (hread _)
  intro worker
  apply Does.bind (does_editSession_agreed (fun _ => .worker worker) (fun _ => rfl) (fun _ => rfl) fun _ => rfl)
  intro _
  apply Does.bind (hread _)
  intro _
  exact Does.update (fun s hs => .emit _ (fun _ hid => nomatch hid) fun _ hid => Option.some.inj hid ▸ hs) fun _ _ => trivial

theorem workerReady_eq_true (h : workerReady session = true) :
    session.localRelayRequested = true ∧ session.peerRelayRequested = true := by
  simp only [workerReady, Bool.and_eq_true] at h
  exact ⟨h.1.1.1.2, h.1.1.2⟩

theorem makes_ensureWorker : Makes runtime why follows marks (ensureWorker runtime id) := by
  apply does_find
  intro found
  cases found with
  | none => exact (makes_pure ()).does
  | some session =>
      apply Does.ite fun _ => (makes_pure ()).does
      intro hready
      apply (does_startWorker session).weaken
      exact fun s hs => ⟨session, hs.2, workerReady_eq_true (Bool.eq_true_of_not_eq_false hready)⟩

theorem relayRequestDue_eq_true (h : relayRequestDue runtime session = true) : runtime.fallback = true := by
  simp only [relayRequestDue, Bool.and_eq_true] at h
  exact h.1.1.1.1

theorem makes_ensureRelayRequest : Makes runtime why follows marks (ensureRelayRequest runtime id) := by
  apply does_getSession
  intro session
  apply Makes.does
  apply Does.ite fun _ => makes_pure ()
  intro hdue
  have hfallback : runtime.fallback = true := relayRequestDue_eq_true (Bool.eq_true_of_not_eq_false hdue)
  apply Makes.bind (makes_sendPayload rfl fun _ => hfallback)
  intro _
  apply Makes.bind (makes_editSession (fun _ => .localRelayRequested) fun _ _ => ⟨fun _ => .inr hfallback, .inl, fun _ => .inl⟩)
  intro _
  exact makes_ensureWorker

end Relay

section Generations

/-- The session is there, in the given generation. -/
def InGeneration (id : SessionId) (generation : CandidateGeneration) (s : Actor) : Prop :=
  ∃ session, s.sessions.lookup id = some session ∧ session.generation = generation

theorem enterGeneration_of_lookup {f : Nat → Session → Session} (h : s.sessions.lookup id = some session) :
    enterGeneration id f s = some (.ok (), s.enter id (f (s.epochs + 1) session)) :=
  read_bind_eq rfl (update_bind_eq (editSession_of_lookup (s := { s with epochs := s.epochs + 1 }) h))

/-- The envelope opens the generation after that of the session. -/
def Advances (envelope : RendezvousEnvelope) (session : Session) : Prop :=
  envelope.generation ≠ session.generation ∧ isCandidateSetV2 envelope.payload = true ∧
    envelope.generation.value = saturatingAdd session.generation.value 1

instance (envelope : RendezvousEnvelope) (session : Session) : Decidable (Advances envelope session) :=
  inferInstanceAs (Decidable (_ ∧ _ ∧ _))

/-- What is known of the session if the envelope opens a generation for it. -/
def Follows (follows : Session → Prop) (envelope : RendezvousEnvelope) (s : Actor) : Prop :=
  ∀ session, s.sessions.lookup envelope.sessionId = some session → Advances envelope session → follows session

theorem does_acceptGeneration : Does (Change runtime why follows marks) (Follows follows envelope)
    (acceptGeneration runtime envelope) fun _ => InGeneration envelope.sessionId envelope.generation := by
  apply does_getSession
  intro session
  apply Does.ite
  · intro hg
    exact Does.pure () fun s hs => ⟨session, hs.2, hg.symm⟩
  · intro hg
    apply Does.bind (Q := fun _ s => s.sessions.lookup envelope.sessionId = some session ∧ follows session ∧
      envelope.generation.value = saturatingAdd session.generation.value 1)
    · apply Does.read
      intro s _ hs hok
      obtain ⟨hset, hnext⟩ := require_eq_ok.mp hok
      exact ⟨hs.2, hs.1 session hs.2 ⟨hg, hset, hnext⟩, hnext⟩
    · intro _
      apply Does.bind (Q := fun _ => InGeneration envelope.sessionId envelope.generation)
      · intro s r t hs h
        obtain ⟨rfl, rfl⟩ := Prod.mk.inj (Option.some.inj ((enterGeneration_of_lookup hs.1).symm.trans h))
        exact ⟨.single (.follow hs.1 hs.2.1 hs.2.2), fun _ _ => ⟨_, lookup_put_self, rfl⟩⟩
      · intro _
        exact does_requestObservation fun s t hst _ _ hs => by rwa [InGeneration, hst]

theorem does_editSession_in {f : Session → Session} (hf : ∀ session, (f session).generation = session.generation)
    (he : ∀ session : Session, session.generation = generation → Edit (marks id) session (f session))
    (hn : ∀ s session, Noting runtime s id session (f session)) :
    Does (Change runtime why follows marks) (InGeneration id generation) (editSession id f) fun _ => InGeneration id generation := by
  refine does_editSession ?_ ?_ fun s session _ => hn s session
  · rintro s session ⟨session', hl', hg⟩ hl
    obtain rfl : session' = session := Option.some.inj (hl'.symm.trans hl)
    exact he session' hg
  · rintro s session ⟨session', hl', hg⟩ hl
    obtain rfl : session' = session := Option.some.inj (hl'.symm.trans hl)
    exact ⟨_, lookup_put_self, (hf session').trans hg⟩

end Generations

section Payloads

theorem makes_providerAccept : Makes runtime why follows marks (providerAccept runtime id) := by
  apply does_getSession
  intro session
  apply Makes.does
  cases session.protocol with
  | some protocol =>
      refine Makes.bind (makes_sendPayload rfl nofun) ?_
      intro _
      exact (makes_editSession (fun _ => .providerAccepted) fun _ _ => .kept rfl rfl rfl).bind fun _ => makes_sendCandidates
  | none => exact makes_sendPayload rfl nofun

/-- The close goes out and the session fails, or the session fails alone. -/
theorem resolve_changes {r : Except IoError Unit} (hl : s.sessions.lookup id = some session)
    (he : signedEnvelope runtime s id session.peer (UInt64.ofNat (2 ^ 64 - 2)) session.expiry (.close ⟨none⟩) =
      .ok envelope)
    (h : ((Call.ignoring (sendEnvelope envelope) : Act Unit) >>= fun _ => failSession id .closed) s = some (r, t)) :
    Changes runtime why follows marks s t := by
  rcases bind_cases h with ⟨_, _, hu, _⟩ | ⟨_, u, hu, hr⟩
  · obtain ⟨_, _, hr⟩ := Option.map_eq_some_iff.mp hu
    exact nomatch (Prod.mk.inj hr).1
  obtain ⟨⟨sent, v⟩, hv, hr'⟩ := Option.map_eq_some_iff.mp hu
  obtain ⟨_, rfl⟩ := Prod.mk.inj hr'
  rcases sendEnvelope_cases hv with ⟨_, _, rfl⟩ | ⟨hroom, _, rfl⟩
  · exact (makes_failSession (fun _ => .inl rfl) _ _ _ trivial hr).1
  rcases read_bind_cases hr with ⟨_, h, _⟩ | ⟨found, hf, hr⟩
  · exact nomatch h
  obtain rfl : found = some session := (Except.ok.inj hf).symm.trans hl
  have hfail : Changes runtime why follows marks s ((s.fail id .closed).post envelope) := .single (.resolve hl he hroom)
  exact hfail.trans (makes_answer session.reply _ _ _ _ trivial hr).1

theorem makes_resolveProtocol (protocol : ConfigTunnelProtocol) :
    Makes runtime why follows marks (resolveProtocol runtime id protocol) := by
  apply does_getSession
  intro session
  apply Does.bind (Q := fun _ s => s.sessions.lookup id = some (takeReply session))
  · refine does_editSession (fun _ _ _ _ => .takeReply) ?_ fun _ _ _ => .kept rfl rfl rfl
    intro s session' hs hl
    obtain rfl : session' = session := Option.some.inj (hl.symm.trans hs.2)
    exact lookup_put_self
  · intro _
    apply Does.bind (does_answer (fun _ _ hs => hs) _ _)
    intro _ s r t hs h
    refine ⟨?_, fun _ _ => trivial⟩
    rcases read_bind_cases h with ⟨_, _, hr⟩ | ⟨envelope, he, hr⟩
    · obtain ⟨_, rfl⟩ := Prod.mk.inj hr
      exact .refl
    · exact resolve_changes hs he hr

theorem makes_applyDecision (decision : ProviderDecision) : Makes runtime why follows marks (applyDecision runtime id decision) := by
  rw [applyDecision]
  cases decision.protocol with
  | none => exact makes_failSession fun _ => .inr (.inl rfl)
  | some wire =>
      apply does_getSession
      intro session
      apply Makes.does
      apply Makes.bind (makes_editSession (fun _ => .protocol _) fun _ _ => .kept rfl rfl rfl)
      intro _
      exact Does.ite (fun _ => makes_resolveProtocol _) fun _ => makes_pure ()

theorem does_bindTransports (bindings : List TransportKeyBinding) :
    Does (Change runtime why follows marks) (InGeneration id generation) (bindTransports id generation bindings)
      fun _ => InGeneration id generation := by
  induction bindings with
  | nil => exact Does.pure () fun _ hs => hs
  | cons binding rest ih =>
      apply Does.bind (Q := fun _ => InGeneration id generation) (Does.read fun _ _ hs _ => hs)
      intro key
      apply does_getSession
      intro session
      apply Does.bind (Q := fun _ => InGeneration id generation)
      · apply Does.weaken _ fun _ hs => hs.1
        exact does_editSession_in (fun _ => rfl) (fun session hg => hg ▸ .peerEphemeral _ key) fun _ _ => .kept rfl rfl rfl
      · intro _
        exact Does.bind (Q := fun _ => InGeneration id generation) (Does.read fun _ _ hs _ => hs) fun _ => ih

theorem does_applyCandidateSet (set : CandidateSet) : Does (Change runtime why follows marks) (InGeneration id generation)
    (applyCandidateSet runtime id generation set) fun _ _ => True := by
  apply Does.bind (Q := fun _ => InGeneration id generation) (Does.read fun _ _ hs _ => hs)
  intro key
  apply Does.bind (Q := fun _ => InGeneration id generation)
  · exact does_editSession_in (fun _ => rfl) (fun session hg => hg ▸ .peerEphemeral _ key) fun _ _ => .kept rfl rfl rfl
  intro _
  apply Does.bind (Q := fun _ => InGeneration id generation)
  · exact does_editSession_in (fun _ => rfl) (fun session hg => hg ▸ .peerCandidates _) fun _ _ => .kept rfl rfl rfl
  intro _
  apply does_getSession
  intro session
  have hrest : Makes runtime why follows marks (ensureDirect runtime id >>= fun _ => ensureRelayRequest runtime id) :=
    makes_ensureDirect.bind fun _ => makes_ensureRelayRequest
  exact Makes.does (Does.ite (fun _ => makes_sendCandidates.bind fun _ => hrest) fun _ => hrest)

theorem does_applyCandidateSetV2 (set : CandidateSetV2) : Does (Change runtime why follows marks) (InGeneration id generation)
    (applyCandidateSetV2 runtime id generation set) fun _ _ => True := by
  apply does_getSession
  intro session
  apply Does.bind (Q := fun _ => InGeneration id generation) (Does.read fun _ _ hs _ => hs.1)
  intro _
  apply Does.bind (does_bindTransports _)
  intro _
  apply Does.bind (Q := fun _ => InGeneration id generation)
  · exact does_editSession_in (fun _ => rfl) (fun session hg => hg ▸ .peerCandidates _) fun _ _ => .kept rfl rfl rfl
  intro _
  apply Does.bind (Q := fun _ => InGeneration id generation)
  · exact does_editSession_in (fun _ => rfl) (fun session hg => hg ▸ .peerDigest _) fun _ _ => .kept rfl rfl rfl
  intro _
  apply does_getSession
  intro session
  have hrest : Makes runtime why follows marks (ensureDirect runtime id >>= fun _ => ensureRelayRequest runtime id) :=
    makes_ensureDirect.bind fun _ => makes_ensureRelayRequest
  exact Makes.does (Does.ite (fun _ => makes_sendCandidates.bind fun _ => hrest) fun _ => hrest)

theorem does_applyRelayRequest :
    Does (Change runtime why follows marks) (·.Asked id) (applyRelayRequest runtime id) fun _ _ => True := by
  apply Does.bind (Q := fun _ _ => True)
  · exact does_editSession (fun _ _ _ _ => .peerRelayRequested) (fun _ _ _ _ => trivial) fun _ _ hs => ⟨.inl, fun _ => .inr hs, fun _ => .inl⟩
  · intro _
    exact makes_ensureRelayRequest.bind fun _ => makes_ensureWorker

theorem does_applyPayload (payload : RendezvousPayload) : Does (Change runtime why follows marks)
    (fun s => InGeneration id generation s ∧ (isRelayRequest payload = true → s.Asked id))
    (applyPayload runtime id generation payload) fun _ _ => True := by
  cases payload with
  | request => exact makes_providerAccept.does
  | providerDecision decision => exact (makes_applyDecision decision).does
  | candidateSet set => exact (does_applyCandidateSet set).weaken fun _ hs => hs.1
  | candidateSetV2 set => exact (does_applyCandidateSetV2 set).weaken fun _ hs => hs.1
  | relayRequest => exact does_applyRelayRequest.weaken fun _ hs => hs.2 rfl
  | close | error => exact (makes_failSession fun _ => .inl rfl).does
  | connectivityResult => exact (makes_pure ()).does

theorem saturatingAdd_one_le_raised (step : UInt64) (session : Session) :
    saturatingAdd step 1 ≤ (raiseNextStep step session).nextStep := by
  change _ ≤ if _ then _ else _
  split
  · exact UInt64.le_refl _
  · next h => exact UInt64.le_of_lt (UInt64.not_le.mp h)

theorem does_applyVerified : Does (Change runtime why follows marks) (Follows follows envelope)
    (applyVerified runtime envelope) fun _ _ => True := by
  apply Does.bind does_acceptGeneration
  intro _
  apply Does.bind (Q := fun _ s => ∃ session, s.sessions.lookup envelope.sessionId = some session ∧
    session.generation = envelope.generation ∧ saturatingAdd envelope.step 1 ≤ session.nextStep)
  · refine does_editSession (fun _ _ _ _ => .raiseNextStep _) ?_ fun _ _ _ => .kept rfl rfl rfl
    rintro s session ⟨session', hl', hg⟩ hl
    obtain rfl : session' = session := Option.some.inj (hl'.symm.trans hl)
    exact ⟨_, lookup_put_self, hg, saturatingAdd_one_le_raised _ _⟩
  intro _
  apply Does.bind (Q := fun _ s => InGeneration envelope.sessionId envelope.generation s ∧ envelope ∈ s.trace.applied)
  · apply Does.update
    · rintro s ⟨session, hl, hg, hn⟩
      exact .applied envelope hl hg hn
    · rintro s ⟨session, hl, hg, _⟩
      exact ⟨⟨session, hl, hg⟩, List.mem_append_right _ (List.mem_singleton_self _)⟩
  intro _
  exact (does_applyPayload _).weaken fun s hs => ⟨hs.1, fun hrequest => ⟨envelope, hs.2, rfl, hrequest⟩⟩

end Payloads

section Envelopes

theorem noting_pushPending (s : Actor) (session : Session) :
    Noting runtime s envelope.sessionId session (pushPending envelope session) where
  own := .inl
  peer := .inl
  waiting _ hin := (List.mem_append.mp hin).imp_right fun hlast => congrArg RendezvousEnvelope.sessionId (List.mem_singleton.mp hlast)

theorem makes_bufferEnvelope : Makes runtime why follows marks (bufferEnvelope envelope) := by
  apply Makes.bind (makes_editSession (fun _ => .pushPending envelope) noting_pushPending)
  intro _
  apply does_getSession
  intro session
  apply Makes.does
  apply Does.ite fun _ => makes_pure ()
  intro _
  exact (makes_editSession (fun _ => .bindingRequested) fun _ _ => .kept rfl rfl rfl).bind fun _ => makes_lookupIdentity

/-- The checks of `handle_binding` on a buffered envelope. -/
def released (runtime : Runtime) (session : Session) (envelope : RendezvousEnvelope) : Bool :=
  (session.peerKey.any fun key => runtime.verify key envelope) &&
    decide (envelope.sender.str = session.peer ∧ envelope.target.str = runtime.name)

/-- What is known of the session whenever one of the buffered envelopes opens a
generation for it, in the state that those before it have left. -/
def PendingFollows (runtime : Runtime) (follows : Session → Prop) (id : SessionId) :
    List RendezvousEnvelope → Actor → Prop
  | [], _ => True
  | envelope :: rest, s =>
      ∀ session ∈ s.sessions.lookup id, released runtime session envelope = true →
        (∀ session ∈ s.sessions.lookup envelope.sessionId, Advances envelope session → follows session) ∧
          Leaves (PendingFollows runtime follows id rest) (applyVerified runtime envelope s)

instance decidablePendingFollows [DecidablePred follows] : (envelopes : List RendezvousEnvelope) →
    DecidablePred (PendingFollows runtime follows id envelopes)
  | [], _ => isTrue trivial
  | envelope :: rest, s =>
      have : DecidablePred (PendingFollows runtime follows id rest) := decidablePendingFollows rest
      inferInstanceAs (Decidable (∀ session ∈ s.sessions.lookup id, released runtime session envelope = true →
        (∀ session ∈ s.sessions.lookup envelope.sessionId, Advances envelope session → follows session) ∧
          Leaves (PendingFollows runtime follows id rest) (applyVerified runtime envelope s)))

theorem pendingFollows_of_forall {follows : Session → Prop} (hf : ∀ session, follows session)
    (envelopes : List RendezvousEnvelope) (s : Actor) : PendingFollows runtime follows id envelopes s := by
  induction envelopes generalizing s with
  | nil => trivial
  | cons envelope rest ih =>
      intro session _ _
      refine ⟨fun session _ _ => hf session, ?_⟩
      unfold Leaves
      split
      · exact ih _
      · trivial

theorem does_applyPending (envelopes : List RendezvousEnvelope) :
    Does (Change runtime why follows marks) (PendingFollows runtime follows id envelopes)
      (applyPending runtime id envelopes) fun _ _ => True := by
  induction envelopes with
  | nil => exact (makes_pure ()).does
  | cons envelope rest ih =>
      apply does_getSession
      intro session
      apply Does.bind (Q := fun key s => (PendingFollows runtime follows id (envelope :: rest) s ∧
        s.sessions.lookup id = some session) ∧ session.peerKey = some key)
      · exact Does.read fun s key hs hok => ⟨hs, okOr_eq_ok.mp hok⟩
      intro key
      apply Does.bind (Q := fun _ s => (PendingFollows runtime follows id (envelope :: rest) s ∧
        s.sessions.lookup id = some session) ∧ session.peerKey = some key ∧ runtime.verify key envelope = true)
      · exact Does.read fun s _ hs hok => ⟨hs.1, hs.2, require_eq_ok.mp hok⟩
      intro _
      apply Does.bind (Q := fun _ s => Follows follows envelope s ∧
        ∀ t, applyVerified runtime envelope s = some (.ok (), t) → PendingFollows runtime follows id rest t)
      · apply Does.read
        intro s _ hs hok
        obtain ⟨⟨hfollows, hl⟩, hkey, hverify⟩ := hs
        have hreleased : released runtime session envelope = true := by
          simp only [released, hkey, Option.any_some, hverify, Bool.true_and]
          exact decide_eq_true (require_eq_ok.mp hok)
        obtain ⟨hfollow, hrest⟩ := hfollows session hl hreleased
        refine ⟨hfollow, fun t ht => ?_⟩
        rwa [ht] at hrest
      intro _
      apply Does.bind (Q := fun _ => PendingFollows runtime follows id rest)
      · intro s r t hs h
        refine ⟨(does_applyVerified _ _ _ hs.1 h).1, ?_⟩
        rintro _ rfl
        exact hs.2 t h
      intro _
      apply Does.bind (Q := fun _ => PendingFollows runtime follows id rest) (Does.read fun _ _ hs _ => hs)
      intro present
      exact Does.ite (fun _ => ih) fun _ => (makes_pure ()).does

end Envelopes

end Rustgo.Orchestration
