import Rustgo.CallPairs
import Rustgo.OrchestrationApply

namespace Rustgo.Orchestration

open Call Checks Coordinator Path Protocol Rendezvous Tables

/-- The session without the envelopes that wait in it and what was done to have them released. -/
def bare (session : Session) : Session :=
  { session with
    pending := []
    bindingRequested := true }

/-- What no handler changes in a session. -/
def face (session : Session) : Option DevicePublicKey × String × UInt64 × Bool :=
  (session.peerKey, session.peer, session.expiry, session.cancelled)

/-- Two actors that differ in what waits in one session, in what is to be sent,
and in other sessions; their control connection takes every message. -/
structure Alike (id : SessionId) (s t : Actor) : Prop where
  eq : t = { s with outbox := t.outbox, sessions := t.sessions }
  room : s.room = none
  session : (t.sessions.lookup id).map bare = (s.sessions.lookup id).map bare

/-- What the handling of envelopes keeps, with the record of those that were applied. -/
structure Keeps (id : SessionId) (envelopes : List RendezvousEnvelope) (s t : Actor) : Prop where
  applied : t.trace.applied = s.trace.applied ++ envelopes
  controlAvailable : t.controlAvailable = s.controlAvailable
  generation : t.generation = s.generation
  session : ∀ session, t.sessions.lookup id = some session → (s.sessions.lookup id).map face = some (face session)

variable {runtime : Runtime} {s t u : Actor} {id : SessionId} {session session' : Session} {α β : Type}

theorem keeps_of_sessions (happlied : t.trace.applied = s.trace.applied)
    (havailable : t.controlAvailable = s.controlAvailable) (hgeneration : t.generation = s.generation)
    (hsessions : t.sessions.lookup id = s.sessions.lookup id) : Keeps id [] s t := by
  refine ⟨happlied.trans (List.append_nil _).symm, havailable, hgeneration, fun session h => ?_⟩
  rw [← hsessions, h, Option.map_some]

theorem Keeps.refl (s : Actor) : Keeps id [] s s := keeps_of_sessions rfl rfl rfl rfl

theorem Keeps.append {xs ys : List RendezvousEnvelope} (h : Keeps id xs s t) (h' : Keeps id ys t u) :
    Keeps id (xs ++ ys) s u := by
  refine ⟨?_, h'.controlAvailable.trans h.controlAvailable, h'.generation.trans h.generation, fun session hu => ?_⟩
  · rw [h'.applied, h.applied, List.append_assoc]
  · obtain ⟨before, ht, hface⟩ := Option.map_eq_some_iff.mp (h'.session session hu)
    rw [h.session before ht, hface]

theorem Keeps.trans (h : Keeps id [] s t) (h' : Keeps id [] t u) : Keeps id [] s u := h.append h'

/-- Both actors do the same, as far as they are alike. -/
abbrev Same (id : SessionId) (S : α → α → Prop) (x y : Act α) : Prop := Agrees (Keeps id []) (Alike id) S x y

abbrev SameUnit (id : SessionId) (x y : Act Unit) : Prop := Same id (fun _ _ => True) x y

section Rules

variable {S : α → α → Prop} {T : β → β → Prop}

theorem Same.bind {x y : Act α} {f g : α → Act β} (hx : Same id S x y) (hf : ∀ a b, S a b → Same id T (f a) (g b)) :
    Same id T (x >>= f) (y >>= g) := Agrees.bind (fun _ _ _ => Keeps.trans) hx hf

theorem Same.andThen {x y : Act Unit} {f g : Unit → Act β} (hx : SameUnit id x y) (hf : Same id T (f ()) (g ())) :
    Same id T (x >>= f) (y >>= g) := Same.bind hx fun _ _ _ => hf

theorem same_pure {a b : α} (h : S a b) : Same id S (pure a) (pure b) := Agrees.pure Keeps.refl h

theorem same_read {f g : Actor → Except IoError α} (h : ∀ s t, Alike id s t → Matches S (f s) (g t)) :
    Same id S (Call.read f) (Call.read g) := Agrees.read Keeps.refl h

theorem matches_eq {r r' : Except IoError α} (h : r' = r) : Matches (fun a b => b = a) r r' := by
  subst h
  cases r' with
  | ok a => exact .ok rfl
  | error e => exact .error e

theorem same_const {r r' : Except IoError α} (h : r' = r) :
    Same id (fun a b => b = a) (Call.read fun _ => r) (Call.read fun _ => r') :=
  same_read fun _ _ _ => matches_eq h

theorem Alike.lookup (h : Alike id s t) :
    (s.sessions.lookup id = none ∧ t.sessions.lookup id = none) ∨ ∃ session session',
      s.sessions.lookup id = some session ∧ t.sessions.lookup id = some session' ∧ bare session' = bare session := by
  have hs := h.session
  cases hl : s.sessions.lookup id with
  | none =>
      rw [hl] at hs
      exact .inl ⟨rfl, Option.map_eq_none_iff.mp hs⟩
  | some session =>
      rw [hl] at hs
      obtain ⟨session', hl', hbare⟩ := Option.map_eq_some_iff.mp hs
      exact .inr ⟨session, session', rfl, hl', hbare⟩

theorem same_getSession : Same id (fun a b => bare b = bare a) (getSession id) (getSession id) := by
  apply same_read
  intro s t h
  rcases h.lookup with ⟨hs, ht⟩ | ⟨session, session', hs, ht, hbare⟩
  · rw [hs, ht]
    exact .error _
  · rw [hs, ht]
    exact .ok hbare

theorem same_find : Same id (fun a b => b.map bare = a.map bare)
    (Call.read fun s => .ok (s.sessions.lookup id)) (Call.read fun s => .ok (s.sessions.lookup id)) :=
  same_read fun _ _ h => .ok h.session

theorem Alike.put (h : Alike id s t) (hb : bare session' = bare session) :
    Alike id (s.put id session) (t.put id session') where
  eq := by rw [h.eq]; rfl
  room := h.room
  session := by rw [lookup_put_self, lookup_put_self, Option.map_some, Option.map_some, hb]

theorem Alike.drop (h : Alike id s t) : Alike id (s.drop id) (t.drop id) where
  eq := by rw [h.eq]; rfl
  room := h.room
  session := by rw [lookup_drop_self, lookup_drop_self]

theorem keeps_put (hl : s.sessions.lookup id = some session) (hf : face session' = face session) :
    Keeps id [] s (s.put id session') := by
  refine ⟨(List.append_nil _).symm, rfl, rfl, fun after h => ?_⟩
  rw [hl, Option.map_some, ← Option.some.inj (lookup_put_self.symm.trans h), hf]

theorem keeps_drop : Keeps id [] s (s.drop id) :=
  ⟨(List.append_nil _).symm, rfl, rfl, fun _ h => nomatch lookup_drop_self.symm.trans h⟩

/-- A write that depends on the bare session alone. -/
theorem same_editSession {f g : Session → Session} (hf : ∀ session, face (f session) = face session)
    (hb : ∀ a b, bare b = bare a → bare (g b) = bare (f a)) : SameUnit id (editSession id f) (editSession id g) := by
  intro s t h
  rcases h.lookup with ⟨hs, ht⟩ | ⟨session, session', hs, ht, hbare⟩
  · refine ⟨.error .invalid, s, .error .invalid, t, ?_, ?_, Keeps.refl s, h, .error _⟩
    · exact read_bind_error (by rw [hs]; rfl) _
    · exact read_bind_error (by rw [ht]; rfl) _
  · exact ⟨.ok (), _, .ok (), _, editSession_of_lookup hs, editSession_of_lookup ht, keeps_put hs (hf session),
      h.put (hb _ _ hbare), .ok trivial⟩

/-- The same write on both sides. -/
theorem same_edit (f : Session → Session) (hf : ∀ session, face (f session) = face session)
    (hb : ∀ session, bare (f session) = bare (f (bare session))) : SameUnit id (editSession id f) (editSession id f) := by
  apply same_editSession hf
  intro a b h
  rw [hb b, h, ← hb a]

/-- A write beside the sessions. -/
theorem same_update (f : Actor → Actor) (hf : ∀ s, (f s).trace.applied = s.trace.applied ∧
      (f s).controlAvailable = s.controlAvailable ∧ (f s).generation = s.generation ∧ (f s).sessions = s.sessions)
    (h : ∀ s t, Alike id s t → f t = { f s with outbox := (f t).outbox, sessions := (f t).sessions } ∧
      (f s).room = none) :
    SameUnit id (Call.update f) (Call.update f) := by
  apply Agrees.update
  intro s t hst
  obtain ⟨happlied, havailable, hgeneration, hsessions⟩ := hf s
  obtain ⟨heq, hroom⟩ := h s t hst
  refine ⟨keeps_of_sessions happlied havailable hgeneration (by rw [hsessions]), ⟨heq, hroom, ?_⟩⟩
  rw [hsessions, (hf t).2.2.2]
  exact hst.session

theorem same_emit (effect : Effect) : SameUnit id (emit effect) (emit effect) :=
  same_update _ (fun _ => ⟨rfl, rfl, rfl, rfl⟩) fun _ _ h => ⟨by rw [h.eq], h.room⟩

theorem same_answer (reply : Option Nat) (result : Except IoError Opened) :
    SameUnit id (answer reply result) (answer reply result) := by
  cases reply with
  | none => exact same_pure trivial
  | some reply => exact same_emit _

theorem of_bare {γ : Type} {a b : Session} (f : Session → γ) (hf : ∀ session, f (bare session) = f session)
    (h : bare b = bare a) : f b = f a := by
  rw [← hf b, h, hf a]

theorem Alike.signedEnvelope (h : Alike id s t) (peer : String) (step expiry : UInt64) (payload : RendezvousPayload) :
    signedEnvelope runtime t id peer step expiry payload = signedEnvelope runtime s id peer step expiry payload := by
  apply signedEnvelope_congr
  · rw [h.eq]
  · rcases h.lookup with ⟨hs, ht⟩ | ⟨session, session', hs, ht, hbare⟩
    · rw [hs, ht]
    · rw [hs, ht]
      exact of_bare Session.generation (fun _ => rfl) hbare

end Rules

section Send

variable {payload : RendezvousPayload}

theorem same_sendPeerControl (message : PeerMessage) : SameUnit id (sendPeerControl message) (sendPeerControl message) := by
  apply Same.bind (S := fun _ _ => True)
  · apply same_read
    intro s t h
    have ht : t.room = none := by rw [h.eq]; exact h.room
    rw [h.room, ht]
    exact .ok trivial
  · intro _ _ _
    refine same_update _ (fun _ => ⟨rfl, rfl, rfl, rfl⟩) ?_
    intro s t h
    exact ⟨by rw [h.eq], by rw [h.room]; rfl⟩

theorem same_lookupIdentity : SameUnit id (lookupIdentity id) (lookupIdentity id) := by
  apply Same.bind same_getSession
  intro a b hbare
  have hpeer : b.peer = a.peer := of_bare Session.peer (fun _ => rfl) hbare
  rw [hpeer]
  apply Same.bind (same_const rfl)
  rintro _ peer rfl
  exact same_sendPeerControl _

theorem same_requestObservation : SameUnit id (requestObservation runtime id) (requestObservation runtime id) := by
  apply Agrees.ite Iff.rfl fun _ => same_pure trivial
  intro _
  apply Same.andThen
  · exact same_update _ (fun _ => ⟨rfl, rfl, rfl, rfl⟩) fun _ _ h => ⟨by rw [h.eq], h.room⟩
  apply Same.andThen (same_sendPeerControl _)
  exact same_update _ (fun _ => ⟨rfl, rfl, rfl, rfl⟩) fun _ _ h => ⟨by rw [h.eq], h.room⟩

theorem same_sendEnvelope (envelope : RendezvousEnvelope) : SameUnit id (sendEnvelope envelope) (sendEnvelope envelope) := by
  apply Same.bind (same_const rfl)
  intro _ _ _
  apply Same.andThen (same_sendPeerControl _)
  exact same_update _ (fun _ => ⟨rfl, rfl, rfl, rfl⟩) fun _ _ h => ⟨by rw [h.eq], h.room⟩

theorem same_sendPayload : SameUnit id (sendPayload runtime id payload) (sendPayload runtime id payload) := by
  apply Same.bind same_getSession
  intro a b hbare
  have hnext : b.nextStep = a.nextStep := of_bare Session.nextStep (fun _ => rfl) hbare
  have hpeer : b.peer = a.peer := of_bare Session.peer (fun _ => rfl) hbare
  have hexpiry : b.expiry = a.expiry := of_bare Session.expiry (fun _ => rfl) hbare
  rw [hnext, hpeer, hexpiry]
  apply Same.bind (same_const rfl)
  rintro _ next rfl
  apply Same.bind (same_edit (setNextStep next) (fun _ => rfl) fun _ => rfl)
  intro _ _ _
  apply Same.bind (same_read fun s t h => matches_eq (h.signedEnvelope _ _ _ _))
  rintro _ envelope rfl
  exact same_sendEnvelope envelope

theorem same_failSession (error : IoError) : SameUnit id (failSession id error) (failSession id error) := by
  apply Same.bind same_find
  intro a b hab
  cases a with
  | none =>
      obtain rfl := Option.map_eq_none_iff.mp hab
      exact same_pure trivial
  | some a =>
      obtain ⟨b, rfl, hbare⟩ := Option.map_eq_some_iff.mp hab
      have hreply : b.reply = a.reply := of_bare Session.reply (fun _ => rfl) hbare
      dsimp only
      rw [hreply]
      apply Same.andThen _ (same_answer _ _)
      apply Agrees.update
      intro s t h
      exact ⟨⟨(List.append_nil _).symm, rfl, rfl, keeps_drop.session⟩, ⟨by rw [h.eq]; rfl, h.room, h.drop.session⟩⟩

theorem same_sendCandidates : SameUnit id (sendCandidates runtime id) (sendCandidates runtime id) := by
  apply Same.bind same_getSession
  intro a b hbare
  have hdue : candidatesDue runtime b = candidatesDue runtime a := of_bare _ (fun _ => rfl) hbare
  have hset : candidateSetOf runtime id b = candidateSetOf runtime id a := of_bare _ (fun _ => rfl) hbare
  have hepoch : b.epoch = a.epoch := of_bare Session.epoch (fun _ => rfl) hbare
  rw [hdue, hset, hepoch]
  apply Agrees.ite Iff.rfl fun _ => same_pure trivial
  intro _
  apply Same.bind (same_const rfl)
  rintro _ set rfl
  apply Same.bind same_sendPayload
  intro _ _ _
  exact same_edit (setCandidatesSent ⟨candidateSetDigest runtime set, a.epoch⟩) (fun _ => rfl) fun _ => rfl

end Send

section Direct

theorem same_offerAttempt (attempt : DirectAttempt) : SameUnit id (offerAttempt id attempt) (offerAttempt id attempt) := by
  apply Same.bind (same_edit setDirectStarted (fun _ => rfl) fun _ => rfl)
  intro _ _ _
  apply Same.bind same_getSession
  intro a b hbare
  have hreply : b.recheckReply = a.recheckReply := of_bare Session.recheckReply (fun _ => rfl) hbare
  have hepoch : b.epoch = a.epoch := of_bare Session.epoch (fun _ => rfl) hbare
  rw [hreply, hepoch]
  cases a.recheckReply with
  | some reply => exact Same.bind (same_edit takeRecheckReply (fun _ => rfl) fun _ => rfl) fun _ _ _ => same_emit _
  | none => exact same_edit (setDirectAttempt (some ⟨attempt, a.epoch⟩)) (fun _ => rfl) fun _ => rfl

theorem same_prepareDirect {a b : Session} (hbare : bare b = bare a) (candidate : Candidate) :
    SameUnit id (prepareDirect runtime id a candidate) (prepareDirect runtime id b candidate) := by
  have htransport : directTransport b = directTransport a := of_bare _ (fun _ => rfl) hbare
  have hkeys : b.localEphemerals = a.localEphemerals := of_bare Session.localEphemerals (fun _ => rfl) hbare
  unfold prepareDirect
  rw [htransport, hkeys]
  apply Same.bind (same_const rfl)
  rintro _ localKey rfl
  apply Same.bind (same_edit (removeLocalEphemeral (directTransport a)) (fun _ => rfl) fun _ => rfl)
  intro _ _ _
  apply Same.bind
  · apply same_read
    intro s t h
    apply matches_eq
    rw [h.eq]
    exact of_bare (fun session => directAttempt runtime s id session (directTransport a) localKey.value candidate)
      (fun _ => rfl) hbare
  rintro _ attempt rfl
  have hrest : SameUnit id ((Call.read fun _ => attemptReady runtime attempt) >>= fun _ => offerAttempt id attempt)
      ((Call.read fun _ => attemptReady runtime attempt) >>= fun _ => offerAttempt id attempt) :=
    Same.bind (same_const rfl) fun _ _ _ => same_offerAttempt attempt
  exact Agrees.ite Iff.rfl (fun _ => Same.bind (same_edit takeQuicSocket (fun _ => rfl) fun _ => rfl) fun _ _ _ => hrest) fun _ => hrest

theorem same_ensureDirect : SameUnit id (ensureDirect runtime id) (ensureDirect runtime id) := by
  apply Same.bind same_getSession
  intro a b hbare
  apply Same.bind (same_const rfl)
  rintro _ p2p rfl
  have hdue : directDue runtime p2p b = directDue runtime p2p a := of_bare _ (fun _ => rfl) hbare
  have hbest : bestCandidate b.peerCandidates (directTransport b) = bestCandidate a.peerCandidates (directTransport a) :=
    of_bare (fun session => bestCandidate session.peerCandidates (directTransport session)) (fun _ => rfl) hbare
  rw [hdue, hbest]
  apply Agrees.ite Iff.rfl fun _ => same_pure trivial
  intro _
  cases bestCandidate a.peerCandidates (directTransport a) with
  | none => exact same_pure trivial
  | some candidate => exact same_prepareDirect hbare candidate

end Direct

section Relay

theorem same_startWorker {a b : Session} (hbare : bare b = bare a) :
    SameUnit id (startWorker runtime id a) (startWorker runtime id b) := by
  have hkeys : b.localEphemerals = a.localEphemerals := of_bare Session.localEphemerals (fun _ => rfl) hbare
  have hprotocol : b.protocol = a.protocol := of_bare Session.protocol (fun _ => rfl) hbare
  unfold startWorker
  rw [hkeys, hprotocol]
  apply Same.bind (same_const rfl)
  rintro _ localKey rfl
  apply Same.bind (same_edit (removeLocalEphemeral .relay) (fun _ => rfl) fun _ => rfl)
  intro _ _ _
  apply Same.bind
  · apply same_read
    intro s t h
    apply matches_eq
    rw [h.eq]
    exact of_bare (fun session => relayWorker runtime s id session localKey.value) (fun _ => rfl) hbare
  rintro _ worker rfl
  apply Same.bind (same_edit (setWorker worker) (fun _ => rfl) fun _ => rfl)
  intro _ _ _
  exact Same.bind (same_const rfl) fun _ _ _ => same_emit _

theorem same_ensureWorker : SameUnit id (ensureWorker runtime id) (ensureWorker runtime id) := by
  apply Same.bind same_find
  intro a b hab
  cases a with
  | none =>
      obtain rfl := Option.map_eq_none_iff.mp hab
      exact same_pure trivial
  | some a =>
      obtain ⟨b, rfl, hbare⟩ := Option.map_eq_some_iff.mp hab
      have hready : workerReady b = workerReady a := of_bare _ (fun _ => rfl) hbare
      exact Agrees.ite (by rw [hready]) (fun _ => same_pure trivial) fun _ => same_startWorker hbare

theorem same_ensureRelayRequest : SameUnit id (ensureRelayRequest runtime id) (ensureRelayRequest runtime id) := by
  apply Same.bind same_getSession
  intro a b hbare
  have hdue : relayRequestDue runtime b = relayRequestDue runtime a := of_bare _ (fun _ => rfl) hbare
  have hprotocol : b.protocol = a.protocol := of_bare Session.protocol (fun _ => rfl) hbare
  rw [hdue, hprotocol]
  apply Agrees.ite Iff.rfl fun _ => same_pure trivial
  intro _
  apply Same.bind same_sendPayload
  intro _ _ _
  exact Same.bind (same_edit setLocalRelayRequested (fun _ => rfl) fun _ => rfl) fun _ _ _ => same_ensureWorker

end Relay

section Apply

variable {generation : CandidateGeneration} {envelope : RendezvousEnvelope}

theorem same_enterGeneration (f : Nat → Session → Session) (hf : ∀ epoch session, face (f epoch session) = face session)
    (hb : ∀ epoch session, bare (f epoch session) = bare (f epoch (bare session))) :
    SameUnit id (enterGeneration id f) (enterGeneration id f) := by
  apply Same.bind
  · apply same_read
    intro s t h
    apply matches_eq
    rw [h.eq]
  rintro _ epoch rfl
  apply Same.andThen
  · exact same_update _ (fun _ => ⟨rfl, rfl, rfl, rfl⟩) fun _ _ h => ⟨by rw [h.eq], h.room⟩
  exact same_edit (f epoch) (hf epoch) (hb epoch)

variable (runtime) in
theorem same_acceptGeneration (hid : envelope.sessionId = id) :
    SameUnit id (acceptGeneration runtime envelope) (acceptGeneration runtime envelope) := by
  subst hid
  apply Same.bind same_getSession
  intro a b hbare
  have hgeneration : b.generation = a.generation := of_bare Session.generation (fun _ => rfl) hbare
  rw [hgeneration]
  apply Agrees.ite Iff.rfl fun _ => same_pure trivial
  intro _
  apply Same.bind (same_const rfl)
  intro _ _ _
  apply Same.andThen _ same_requestObservation
  exact same_enterGeneration (advanceResponder runtime envelope.generation) (fun _ _ => rfl) fun _ _ => rfl

theorem same_providerAccept : SameUnit id (providerAccept runtime id) (providerAccept runtime id) := by
  apply Same.bind same_getSession
  intro a b hbare
  have hprotocol : b.protocol = a.protocol := of_bare Session.protocol (fun _ => rfl) hbare
  rw [hprotocol]
  cases a.protocol with
  | none => exact same_sendPayload
  | some protocol =>
      apply Same.andThen same_sendPayload
      apply Same.andThen _ same_sendCandidates
      exact same_edit providerAccepted (fun _ => rfl) fun _ => rfl

theorem same_resolveProtocol (protocol : ConfigTunnelProtocol) :
    SameUnit id (resolveProtocol runtime id protocol) (resolveProtocol runtime id protocol) := by
  apply Same.bind same_getSession
  intro a b hbare
  have hreply : b.reply = a.reply := of_bare Session.reply (fun _ => rfl) hbare
  have hpeer : b.peer = a.peer := of_bare Session.peer (fun _ => rfl) hbare
  have hexpiry : b.expiry = a.expiry := of_bare Session.expiry (fun _ => rfl) hbare
  rw [hreply, hpeer, hexpiry]
  apply Same.andThen (same_edit takeReply (fun _ => rfl) fun _ => rfl)
  apply Same.andThen (same_answer _ _)
  apply Same.bind (same_read fun s t h => matches_eq (h.signedEnvelope _ _ _ _))
  rintro _ envelope rfl
  exact Same.andThen (Agrees.ignoring (same_sendEnvelope envelope)) (same_failSession _)

theorem same_applyDecision (decision : ProviderDecision) :
    SameUnit id (applyDecision runtime id decision) (applyDecision runtime id decision) := by
  unfold applyDecision
  cases decision.protocol with
  | none => exact same_failSession _
  | some wire =>
      apply Same.bind same_getSession
      intro a b hbare
      have hresolve : b.resolveOnly = a.resolveOnly := of_bare Session.resolveOnly (fun _ => rfl) hbare
      apply Same.andThen (same_edit (setProtocol (.fromWire wire)) (fun _ => rfl) fun _ => rfl)
      exact Agrees.ite (by rw [hresolve]) (fun _ => same_resolveProtocol _) fun _ => same_pure trivial

theorem same_bindTransports (bindings : List TransportKeyBinding) :
    SameUnit id (bindTransports id generation bindings) (bindTransports id generation bindings) := by
  induction bindings with
  | nil => exact same_pure trivial
  | cons binding rest ih =>
      apply Same.bind (same_const rfl)
      rintro _ key rfl
      apply Same.bind same_getSession
      intro a b hbare
      have hkeys : b.peerEphemeralPublic = a.peerEphemeralPublic :=
        of_bare Session.peerEphemeralPublic (fun _ => rfl) hbare
      rw [hkeys]
      apply Same.andThen (same_edit (setPeerEphemeral binding.transport ⟨key, generation⟩) (fun _ => rfl) fun _ => rfl)
      exact Same.bind (same_const rfl) fun _ _ _ => ih

theorem same_ensurePaths : SameUnit id (ensureDirect runtime id >>= fun _ => ensureRelayRequest runtime id)
    (ensureDirect runtime id >>= fun _ => ensureRelayRequest runtime id) :=
  Same.andThen same_ensureDirect same_ensureRelayRequest

theorem same_applyCandidateSet (set : CandidateSet) :
    SameUnit id (applyCandidateSet runtime id generation set) (applyCandidateSet runtime id generation set) := by
  apply Same.bind (same_const rfl)
  rintro _ key rfl
  apply Same.andThen (same_edit (setPeerEphemeral .relay ⟨key, generation⟩) (fun _ => rfl) fun _ => rfl)
  apply Same.andThen
  · exact same_edit (setPeerCandidates (set.candidates.items.map (⟨·, generation⟩))) (fun _ => rfl) fun _ => rfl
  apply Same.bind same_getSession
  intro a b hbare
  have hrole : b.role = a.role := of_bare Session.role (fun _ => rfl) hbare
  exact Agrees.ite (by rw [hrole]) (fun _ => Same.andThen same_sendCandidates same_ensurePaths) fun _ => same_ensurePaths

theorem same_applyCandidateSetV2 (set : CandidateSetV2) :
    SameUnit id (applyCandidateSetV2 runtime id generation set) (applyCandidateSetV2 runtime id generation set) := by
  apply Same.bind same_getSession
  intro a b hbare
  have hrole : b.role = a.role := of_bare Session.role (fun _ => rfl) hbare
  apply Same.bind (same_const (by rw [hrole]))
  intro _ _ _
  apply Same.andThen (same_bindTransports _)
  apply Same.andThen
  · exact same_edit (setPeerCandidates (set.candidates.items.map (⟨·, generation⟩))) (fun _ => rfl) fun _ => rfl
  apply Same.andThen
  · exact same_edit (setPeerDigest ⟨candidateSetDigest runtime set, generation⟩) (fun _ => rfl) fun _ => rfl
  apply Same.bind same_getSession
  intro a b hbare
  have hsent : b.candidateSentGeneration = a.candidateSentGeneration :=
    of_bare Session.candidateSentGeneration (fun _ => rfl) hbare
  have hgeneration : b.generation = a.generation := of_bare Session.generation (fun _ => rfl) hbare
  exact Agrees.ite (by rw [hsent, hgeneration]) (fun _ => Same.andThen same_sendCandidates same_ensurePaths)
    fun _ => same_ensurePaths

theorem same_applyRelayRequest : SameUnit id (applyRelayRequest runtime id) (applyRelayRequest runtime id) := by
  apply Same.andThen (same_edit setPeerRelayRequested (fun _ => rfl) fun _ => rfl)
  exact Same.andThen same_ensureRelayRequest same_ensureWorker

variable (runtime generation) in
theorem same_applyPayload (payload : RendezvousPayload) :
    SameUnit id (applyPayload runtime id generation payload) (applyPayload runtime id generation payload) := by
  cases payload with
  | request => exact same_providerAccept
  | providerDecision decision => exact same_applyDecision decision
  | candidateSet set => exact same_applyCandidateSet set
  | candidateSetV2 set => exact same_applyCandidateSetV2 set
  | relayRequest => exact same_applyRelayRequest
  | close | error => exact same_failSession _
  | connectivityResult => exact same_pure trivial

end Apply

end Rustgo.Orchestration
