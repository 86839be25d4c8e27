import Rustgo.CallRules
import Rustgo.OrchestrationLoop

namespace Rustgo.Orchestration

open Call Checks Coordinator Path Protocol Rendezvous Tables Relation

/-- The writes about paths, each of which few inputs make. -/
inductive Mark
  | ready
  | manager
  | selected
  | status
  deriving DecidableEq

/-- The writes to a session that keep it in its generation, with what is known
of the data they write. -/
inductive Edit (allowed : Mark → Prop) (session : Session) : Session → Prop
  | removeLocalEphemeral (transport) : Edit allowed session (removeLocalEphemeral transport session)
  | takeQuicSocket : Edit allowed session (takeQuicSocket session)
  | directStarted : Edit allowed session (setDirectStarted session)
  | takeRecheckReply : Edit allowed session (takeRecheckReply session)
  | recheckReply (reply) : Edit allowed session (setRecheckReply reply session)
  | directAttempt (attempt) : Edit allowed session (setDirectAttempt (some ⟨attempt, session.epoch⟩) session)
  | takeDirectAttempt : Edit allowed session (takeDirectAttempt session)
  | worker (worker) : Edit allowed session (setWorker worker session)
  | localRelayRequested : Edit allowed session (setLocalRelayRequested session)
  | peerRelayRequested : Edit allowed session (setPeerRelayRequested session)
  | providerAccepted : Edit allowed session (providerAccepted session)
  | protocol (protocol) : Edit allowed session (setProtocol protocol session)
  | takeReply : Edit allowed session (takeReply session)
  | peerEphemeral (transport key) : Edit allowed session (setPeerEphemeral transport ⟨key, session.generation⟩ session)
  | peerCandidates (candidates : List Candidate) :
      Edit allowed session (setPeerCandidates (candidates.map (⟨·, session.generation⟩)) session)
  | peerDigest (digest) : Edit allowed session (setPeerDigest ⟨digest, session.generation⟩ session)
  | nextStep (next) (h : checkedAdd session.nextStep 1 = some next) : Edit allowed session (setNextStep next session)
  | raiseNextStep (step) : Edit allowed session (raiseNextStep step session)
  | pushPending (envelope) : Edit allowed session (pushPending envelope session)
  | clearPending : Edit allowed session (clearPending session)
  | bindingRequested : Edit allowed session (setBindingRequested session)
  | cachedObservedIp (cached) : Edit allowed session (setCachedObservedIp cached session)
  | punchGrant (grant : PunchGrant) (h : grant.generation = session.generation.value) :
      Edit allowed session (setPunchGrant grant session)
  | relayReady (h : allowed .ready) : Edit allowed session (setRelayReady session)
  | manager (h : allowed .manager) : Edit allowed session (setManager session)
  | selectedKind (kind) (h : allowed .selected) : Edit allowed session (setSelectedKind kind session)
  | cancelled : Edit allowed session (setCancelled session)

namespace Actor

/-- An envelope is on its way, as long as the control connection takes messages. -/
def post (s : Actor) (envelope : RendezvousEnvelope) : Actor :=
  { s with
    outbox := s.outbox ++ [.envelope envelope]
    room := s.room.map (· - 1)
    trace := { s.trace with sent := s.trace.sent ++ [envelope] } }

def fail (s : Actor) (id : SessionId) (error : IoError) : Actor :=
  { s.drop id with trace := { s.trace with failed := s.trace.failed ++ [(id, error)] } }

/-- A session in a generation that bears the next number. -/
def enter (s : Actor) (id : SessionId) (session : Session) : Actor := { s.put id session with epochs := s.epochs + 1 }

end Actor

/-- A session that was inserted and whose request is not yet sent. -/
structure Unannounced (id : SessionId) (session : Session) (s : Actor) : Prop where
  found : s.sessions.lookup id = some session
  role : session.role = .initiator
  nextStep : session.nextStep = 2
  generation : session.generation = .INITIAL
  unsent : ∀ envelope ∈ s.trace.sent, envelope.sessionId ≠ id

/-- The session for which an effect starts a path race. -/
def Effect.race : Effect → Option SessionId
  | .connecting id _ => some id
  | _ => none

/-- The session for which an effect starts a relay worker. -/
def Effect.relay : Effect → Option SessionId
  | .relaying id _ => some id
  | _ => none

def isRelayRequest : RendezvousPayload → Bool
  | .relayRequest _ => true
  | _ => false

namespace Actor

/-- The peer of the session has asked for the relay. -/
def Asked (s : Actor) (id : SessionId) : Prop :=
  ∃ envelope ∈ s.trace.applied, envelope.sessionId = id ∧ isRelayRequest envelope.payload = true

/-- Both ends of the session have asked for the relay. -/
def Agreed (s : Actor) (id : SessionId) : Prop :=
  ∃ session, s.sessions.lookup id = some session ∧ session.localRelayRequested = true ∧ session.peerRelayRequested = true

end Actor

def Runtime.fallback (runtime : Runtime) : Bool := runtime.p2p.any P2pConfig.allowRelayFallback

/-- A session notes a request for the relay only if this end may make one, or
the peer has, and keeps back only its own envelopes. -/
structure Noting (runtime : Runtime) (s : Actor) (id : SessionId) (session session' : Session) : Prop where
  own : session'.localRelayRequested = true → session.localRelayRequested = true ∨ runtime.fallback = true
  peer : session'.peerRelayRequested = true → session.peerRelayRequested = true ∨ s.Asked id
  waiting : ∀ envelope ∈ session'.pending, envelope ∈ session.pending ∨ envelope.sessionId = id

theorem Noting.kept {runtime : Runtime} {s : Actor} {id : SessionId} {session session' : Session}
    (hown : session'.localRelayRequested = session.localRelayRequested)
    (hpeer : session'.peerRelayRequested = session.peerRelayRequested) (hpending : session'.pending = session.pending) :
    Noting runtime s id session session' where
  own h := .inl (hown ▸ h)
  peer h := .inl (hpeer ▸ h)
  waiting _ h := .inl (hpending ▸ h)

/-- What the handlers do to the actor, one write at a time. `why` are the
reasons, beyond the envelopes of the peer, for which sessions fail; `follows` is
known of a session that enters the generation of its peer; `marks` are the
writes about paths that are made. -/
inductive Change (runtime : Runtime) (why : SessionId → Session → IoError → Prop) (follows : Session → Prop)
    (marks : SessionId → Mark → Prop) : Actor → Actor → Prop
  | edit {s : Actor} {id} {session session'} (h : s.sessions.lookup id = some session) (he : Edit (marks id) session session')
      (hn : Noting runtime s id session session') :
      Change runtime why follows marks s (s.put id session')
  | lookup {s : Actor} (lookup) (hroom : s.room ≠ some 0) :
      Change runtime why follows marks s { s with outbox := s.outbox ++ [.peerIdentityLookup lookup], room := s.room.map (· - 1) }
  | request {s : Actor} (id) (hend : runtime.observationEndpoints ≠ none) (hroom : s.room ≠ some 0) :
      Change runtime why follows marks s
        { s with
          observationWaiters := s.observationWaiters ++ [id]
          outbox := s.outbox ++ [.observationGrantRequest]
          room := s.room.map (· - 1)
          trace := { s.trace with requested := s.trace.requested ++ [id] } }
  | requestFailed {s : Actor} (id) (hroom : s.room = some 0) :
      Change runtime why follows marks s { s with observationWaiters := s.observationWaiters ++ [id] }
  | announce {s : Actor} {id} {session : Session} {envelope request} (h : Unannounced id session s)
      (he : signedEnvelope runtime s id session.peer 1 session.expiry (.request request) = .ok envelope)
      (hroom : s.room ≠ some 0) : Change runtime why follows marks s (s.post envelope)
  | post {s : Actor} {id} {session : Session} {next payload envelope} (h : s.sessions.lookup id = some session)
      (hnext : checkedAdd session.nextStep 1 = some next) (hp : isCandidateSetV2 payload = false)
      (hf : isRelayRequest payload = true → runtime.fallback = true)
      (he : signedEnvelope runtime s id session.peer session.nextStep session.expiry payload = .ok envelope)
      (hroom : s.room ≠ some 0) :
      Change runtime why follows marks s ((s.put id (setNextStep next session)).post envelope)
  | candidates {s : Actor} {id} {session : Session} {next set envelope} (digest)
      (h : s.sessions.lookup id = some session) (hnext : checkedAdd session.nextStep 1 = some next)
      (hdue : candidatesDue runtime session = true) (hset : candidateSetOf runtime id session = .ok set)
      (he : signedEnvelope runtime s id session.peer session.nextStep session.expiry (.candidateSetV2 set) =
        .ok envelope) (hroom : s.room ≠ some 0) :
      Change runtime why follows marks s
        ((s.put id (setCandidatesSent ⟨digest, session.epoch⟩ (setNextStep next session))).post envelope)
  | resolve {s : Actor} {id} {session : Session} {envelope} (h : s.sessions.lookup id = some session)
      (he : signedEnvelope runtime s id session.peer (UInt64.ofNat (2 ^ 64 - 2)) session.expiry (.close ⟨none⟩) =
        .ok envelope) (hroom : s.room ≠ some 0) : Change runtime why follows marks s ((s.fail id .closed).post envelope)
  | fail {s : Actor} {id} {session : Session} {error} (h : s.sessions.lookup id = some session)
      (hw : error = .closed ∨ error = .exportRejected ∨ why id session error) : Change runtime why follows marks s (s.fail id error)
  | finish {s : Actor} {id} {session : Session} (h : s.sessions.lookup id = some session) :
      Change runtime why follows marks s (s.drop id)
  | finishPost {s : Actor} {id} {session : Session} {envelope} (h : s.sessions.lookup id = some session)
      (he : signedEnvelope runtime (s.drop id) id session.peer session.nextStep session.expiry (.close ⟨none⟩) =
        .ok envelope) (hroom : s.room ≠ some 0) : Change runtime why follows marks s ((s.drop id).post envelope)
  | follow {s : Actor} {id} {session : Session} {generation} (h : s.sessions.lookup id = some session)
      (hf : follows session) (hnext : generation.value = saturatingAdd session.generation.value 1) :
      Change runtime why follows marks s (s.enter id (advanceResponder runtime generation (s.epochs + 1) session))
  | applied {s : Actor} {session : Session} (envelope : RendezvousEnvelope)
      (h : s.sessions.lookup envelope.sessionId = some session) (hg : session.generation = envelope.generation)
      (hn : saturatingAdd envelope.step 1 ≤ session.nextStep) :
      Change runtime why follows marks s { s with trace := { s.trace with applied := s.trace.applied ++ [envelope] } }
  | emit {s : Actor} (effect : Effect) (h : ∀ id ∈ effect.race, marks id .manager) (ha : ∀ id ∈ effect.relay, s.Agreed id) :
      Change runtime why follows marks s { s with effects := s.effects ++ [effect] }
  | observe {s : Actor} {id} {session : Session} (h : s.sessions.lookup id = some session) (expires socket) :
      Change runtime why follows marks s { s with observations := s.observations ++ [⟨id, session.epoch, expires, socket⟩] }
  | graceOver {s : Actor} (hw : ∀ id session, why id session .graceExpired) :
      Change runtime why follows marks s { s with detachedDeadline := none }
  | mark {s : Actor} {id} (h : marks id .status) (pathStatus) : Change runtime why follows marks s { s with pathStatus }

abbrev Changes (runtime : Runtime) (why : SessionId → Session → IoError → Prop) (follows : Session → Prop)
    (marks : SessionId → Mark → Prop) :=
  ReflTransGen (Change runtime why follows marks)

variable {runtime : Runtime} {why : SessionId → Session → IoError → Prop} {follows : Session → Prop}
  {marks : SessionId → Mark → Prop} {s s' t : Actor} {id : SessionId} {session session' : Session}

theorem Changes.invariant {P : Actor → Prop} (hstep : ∀ s s', P s → Change runtime why follows marks s s' → P s')
    (h : Changes runtime why follows marks s s') (hs : P s) : P s' := by
  induction h with
  | refl => exact hs
  | tail _ hl ih => exact hstep _ _ ih hl

@[simp] theorem lookup_put_self : (s.put id session).sessions.lookup id = some session := Finmap.lookup_insert _

@[simp] theorem lookup_post (envelope : RendezvousEnvelope) : (s.post envelope).sessions = s.sessions := rfl

theorem put_put : (s.put id session).put id session' = s.put id session' := by
  simp only [Actor.put, Finmap.insert_insert]

theorem lookup_put_ne {other : SessionId} (h : other ≠ id) :
    (s.put id session).sessions.lookup other = s.sessions.lookup other := Finmap.lookup_insert_of_ne _ h

@[simp] theorem lookup_drop_self : (s.drop id).sessions.lookup id = none := Finmap.lookup_erase id _

theorem lookup_drop_ne {other : SessionId} (h : other ≠ id) :
    (s.drop id).sessions.lookup other = s.sessions.lookup other := Finmap.lookup_erase_ne h

/-- The generation of an envelope is all it takes from the sessions. -/
theorem signedEnvelope_congr {peer : String} {step expiry : UInt64} {payload : RendezvousPayload}
    (hv : t.version = s.version)
    (hg : (t.sessions.lookup id).elim .INITIAL Session.generation = (s.sessions.lookup id).elim .INITIAL Session.generation) :
    signedEnvelope runtime t id peer step expiry payload = signedEnvelope runtime s id peer step expiry payload := by
  simp only [signedEnvelope, hv, hg]

/-- What is written in an envelope of this client. -/
structure Signed (runtime : Runtime) (s : Actor) (id : SessionId) (peer : String) (step expiry : UInt64)
    (payload : RendezvousPayload) (envelope : RendezvousEnvelope) : Prop where
  version : envelope.version = s.version
  sessionId : envelope.sessionId = id
  sender : envelope.sender.str = runtime.name
  target : envelope.target.str = peer
  step : envelope.step = step
  generation : envelope.generation = (s.sessions.lookup id).elim .INITIAL Session.generation
  expires : envelope.expiresUnixSecs = expiry
  payload : envelope.payload = payload

theorem signedEnvelope_spec {peer : String} {step expiry : UInt64} {payload : RendezvousPayload} {envelope : RendezvousEnvelope}
    (h : signedEnvelope runtime s id peer step expiry payload = .ok envelope) :
    Signed runtime s id peer step expiry payload envelope := by
  simp only [signedEnvelope, bind_eq_ok, orFail_eq_ok, BoundedString.tryFrom_eq_ok, pure_eq_ok] at h
  obtain ⟨sender, hsender, target, htarget, _, _, rfl⟩ := h
  exact ⟨rfl, rfl, hsender, htarget, rfl, rfl, rfl, rfl⟩

section Sessions

/-- How one change leaves a session that is still there. -/
inductive Evolves (runtime : Runtime) (follows : Session → Prop) (allowed : Mark → Prop) (epochs : Nat)
    (session : Session) : Session → Prop
  | same : Evolves runtime follows allowed epochs session session
  | edit {after : Session} (h : Edit allowed session after) : Evolves runtime follows allowed epochs session after
  | candidates (digest next) (hdue : candidatesDue runtime session = true) :
      Evolves runtime follows allowed epochs session (setCandidatesSent ⟨digest, session.epoch⟩ (setNextStep next session))
  | follow {generation} (hf : follows session) (hnext : generation.value = saturatingAdd session.generation.value 1) :
      Evolves runtime follows allowed epochs session (advanceResponder runtime generation (epochs + 1) session)

section Before

variable {R : SessionId → Session → Session → Prop} {other : SessionId} {after : Session}

/-- How the sessions were before one of them was written. -/
theorem before_put (hrefl : ∀ id session, R id session session) (hl : s.sessions.lookup id = some session)
    (h : (s.put id session').sessions.lookup other = some after) (hr : R id session session') :
    ∃ before, s.sessions.lookup other = some before ∧ R other before after := by
  by_cases ho : other = id
  · subst other
    obtain rfl := Option.some.inj (lookup_put_self.symm.trans h)
    exact ⟨session, hl, hr⟩
  · rw [lookup_put_ne ho] at h
    exact ⟨after, h, hrefl other after⟩

theorem before_drop (hrefl : ∀ id session, R id session session) (h : (s.drop id).sessions.lookup other = some after) :
    ∃ before, s.sessions.lookup other = some before ∧ R other before after := by
  by_cases ho : other = id
  · subst other
    exact nomatch lookup_drop_self.symm.trans h
  · exact ⟨after, (lookup_drop_ne ho).symm.trans h, hrefl other after⟩

end Before

/-- Changes open no sessions. -/
theorem Change.evolves (hc : Change runtime why follows marks s t) (h : t.sessions.lookup id = some session') :
    ∃ session, s.sessions.lookup id = some session ∧ Evolves runtime follows (marks id) s.epochs session session' := by
  have hrefl : ∀ id session, Evolves runtime follows (marks id) s.epochs session session := fun _ _ => .same
  cases hc with
  | edit hl he => exact before_put hrefl hl h (.edit he)
  | post hl hnext => exact before_put hrefl hl h (.edit (.nextStep _ hnext))
  | candidates digest hl _ hdue => exact before_put hrefl hl h (.candidates digest _ hdue)
  | follow hl hf hnext => exact before_put hrefl hl h (.follow hf hnext)
  | resolve | fail | finish | finishPost => exact before_drop hrefl h
  | lookup | request | requestFailed | announce | applied | emit | observe | graceOver | mark => exact ⟨session', h, .same⟩

theorem Noting.refl (s : Actor) (id : SessionId) (session : Session) : Noting runtime s id session session :=
  ⟨.inl, .inl, fun _ => .inl⟩

theorem Change.noting (hc : Change runtime why follows marks s t) (h : t.sessions.lookup id = some session') :
    ∃ session, s.sessions.lookup id = some session ∧ Noting runtime s id session session' := by
  cases hc with
  | edit hl _ hn => exact before_put (Noting.refl s) hl h hn
  | post hl | candidates _ hl | follow hl => exact before_put (Noting.refl s) hl h ⟨.inl, .inl, fun _ => .inl⟩
  | resolve | fail | finish | finishPost => exact before_drop (Noting.refl s) h
  | lookup | request | requestFailed | announce | applied | emit | observe | graceOver | mark => exact ⟨session', h, .refl s id session'⟩

/-- What holds of every session. -/
def Everywhere (p : SessionId → Session → Prop) (s : Actor) : Prop :=
  ∀ id session, s.sessions.lookup id = some session → p id session

variable {p : SessionId → Session → Prop}

instance [∀ id session, Decidable (p id session)] : Decidable (Everywhere p s) :=
  decidable_of_iff (∀ id ∈ s.sessions.keys, ∀ session ∈ s.sessions.lookup id, p id session) (by
    simp only [Finmap.mem_keys, Everywhere, Option.mem_def]
    exact ⟨fun h id session hl => h id (Finmap.mem_of_lookup_eq_some hl) session hl, fun h id _ session hl => h id session hl⟩)

theorem Everywhere.put (h : Everywhere p s) (hp : p id session) : Everywhere p (s.put id session) := by
  intro other session' hl
  by_cases ho : other = id
  · subst other
    exact Option.some.inj (lookup_put_self.symm.trans hl) ▸ hp
  · exact h other session' ((lookup_put_ne ho).symm.trans hl)

theorem Everywhere.changes (hp : ∀ id epochs session session', p id session →
      Evolves runtime follows (marks id) epochs session session' → p id session')
    (h : Everywhere p s) (hc : Changes runtime why follows marks s t) : Everywhere p t := by
  refine hc.invariant (fun s t h hc => ?_) h
  intro id session' hl
  obtain ⟨session, hs, he⟩ := hc.evolves hl
  exact hp id _ session session' (h id session hs) he

theorem Everywhere.mono {q : SessionId → Session → Prop} (h : Everywhere p s)
    (hsub : ∀ id session, t.sessions.lookup id = some session → s.sessions.lookup id = some session)
    (hpq : ∀ id session, p id session → q id session) : Everywhere q t :=
  fun id session hl => hpq id session (h id session (hsub id session hl))

end Sessions

section Paths

variable {allowed : Mark → Prop} {epochs : Nat}

theorem Evolves.manager (hm : ¬ allowed .manager) (h : Evolves runtime follows allowed epochs session session') :
    session'.manager = session.manager := by
  cases h with
  | edit h =>
      cases h with
      | manager hmanager => exact absurd hmanager hm
      | _ => rfl
  | same | candidates | follow => rfl

theorem Evolves.selectedKind (hm : ¬ allowed .selected) (h : Evolves runtime follows allowed epochs session session') :
    session'.selectedKind = session.selectedKind := by
  cases h with
  | edit h =>
      cases h with
      | selectedKind _ hselected => exact absurd hselected hm
      | _ => rfl
  | same | candidates | follow => rfl

/-- The effects of a call are added to those before, and few of them start a path race. -/
theorem Change.effects (hc : Change runtime why follows marks s t) :
    ∃ new, t.effects = s.effects ++ new ∧ ∀ id ∈ new.filterMap Effect.race, marks id .manager := by
  cases hc with
  | emit effect h _ => exact ⟨[effect], rfl, fun id hid => h id (by simpa [List.mem_filterMap] using hid)⟩
  | _ => exact ⟨[], (List.append_nil _).symm, fun _ hid => nomatch hid⟩

theorem Changes.effects (hc : Changes runtime why follows marks s t) :
    ∃ new, t.effects = s.effects ++ new ∧ ∀ id ∈ new.filterMap Effect.race, marks id .manager := by
  induction hc with
  | refl => exact ⟨[], (List.append_nil _).symm, fun _ hid => nomatch hid⟩
  | tail _ hc ih =>
      obtain ⟨new, hnew, hmarks⟩ := ih
      obtain ⟨last, hlast, hmarks'⟩ := hc.effects
      refine ⟨new ++ last, by rw [hlast, hnew, List.append_assoc], ?_⟩
      intro id hid
      rw [List.filterMap_append, List.mem_append] at hid
      exact hid.elim (hmarks id) (hmarks' id)

end Paths

end Rustgo.Orchestration
