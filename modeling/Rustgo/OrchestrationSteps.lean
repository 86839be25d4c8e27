import Rustgo.OrchestrationApply
import Rustgo.Runs
import Rustgo.Sha256

namespace Rustgo.Orchestration

open Call Checks Coordinator Path Protocol Rendezvous Tables Relation

variable {runtime : Runtime} {why : SessionId → Session → IoError → Prop} {follows : Session → Prop}
  {marks : SessionId → Mark → Prop} {P : Actor → Prop} {s t : Actor} {id : SessionId} {session : Session} {now : Moment}
  {r : Except IoError Unit}

/-- The first grant in line is gone, with the session it went to. -/
def Actor.grant (s : Actor) (recipient : Option SessionId) : Actor :=
  { s with trace := { s.trace with granted := s.trace.granted ++ [recipient] } }

/-- The first write of an input, where no handler of another input makes it. -/
inductive Head (runtime : Runtime) (now : Moment) : Input → Actor → Actor → Prop
  | skip (i s) : Head runtime now i s s
  | opened {s : Actor} {id} (peer exportName expiry resolveOnly reply) (hav : s.controlAvailable = true)
      (h : s.sessions.lookup id = none) :
      Head runtime now (.opening id peer exportName resolveOnly reply) s
        (s.enter id (initiatorSession runtime s (s.epochs + 1) peer exportName expiry resolveOnly reply))
  | answered {s : Actor} {envelope : RendezvousEnvelope} {request} (bind full) (hav : s.controlAvailable = true)
      (h : s.sessions.lookup envelope.sessionId = none) (hp : envelope.payload = .request request) :
      Head runtime now (.event s.generation (.rendezvous envelope) bind full) s
        (s.enter envelope.sessionId (responderSession runtime s (s.epochs + 1) envelope request))
  | recheck {s : Actor} {id} {session : Session} {generation} (requested cancelled reply)
      (h : s.sessions.lookup id = some session) (hdue : recheckDue now requested cancelled session = true)
      (hrole : session.role = .initiator) (hnext : generation.value = saturatingAdd session.generation.value 1) :
      Head runtime now (.buildRecheck id requested cancelled reply) s
        (s.enter id (advanceInitiator runtime generation reply (s.epochs + 1) session))
  | attached {s : Actor} {generation} (version) (h : s.generation < generation) :
      Head runtime now (.controlAttached generation version) s
        { s with
          generation := generation
          version := version
          room := none
          outbox := []
          controlAvailable := true
          detachedDeadline := none
          trace := { s.trace with requested := [], granted := [] } }
  | detached {s : Actor} (order) (h : s.controlAvailable = true) :
      Head runtime now (.controlDetached s.generation order) s
        { s with
          controlAvailable := false
          detachedDeadline := some (now.instant + reconnectGrace runtime) }
  | ungranted {s : Actor} {grant : ObservationGrant} (bind full) (hav : s.controlAvailable = true)
      (h : grant.expiresUnixSecs ≤ now.unixSecs ∨ runtime.observationEndpoints = none ∨ s.observationWaiters = []) :
      Head runtime now (.event s.generation (.observationGrant grant) bind full) s (s.grant none)
  | granted {s : Actor} {grant : ObservationGrant} {id rest} (bind full) (hav : s.controlAvailable = true)
      (h : now.unixSecs < grant.expiresUnixSecs) (hw : s.observationWaiters = id :: rest) :
      Head runtime now (.event s.generation (.observationGrant grant) bind full) s
        ({ s with observationWaiters := rest }.grant (some id))
  | bound {s : Actor} {binding : PeerIdentityBinding} {session key} (bind full) (hav : s.controlAvailable = true)
      (h : s.sessions.lookup ⟨binding.sessionId⟩ = some session)
      (hk : bindingKey runtime session binding = .ok key) :
      Head runtime now (.event s.generation (.peerIdentityBinding binding) bind full) s
        (s.put ⟨binding.sessionId⟩ (setPeerKey key session))
  | unobserved {s : Actor} (index addresses cache) :
      Head runtime now (.observationResult index addresses) s
        { s with observations := s.observations.eraseIdx index, observedIpCache := cache }
  | observed {s : Actor} {index addresses observation session} (cache)
      (ho : s.observations[index]? = some observation) (h : s.sessions.lookup observation.sessionId = some session) :
      Head runtime now (.observationResult index (some addresses)) s
        ({ s with observations := s.observations.eraseIdx index, observedIpCache := cache }.put observation.sessionId
          (setObserved observation.socket (addresses.map (⟨·, observation.epoch⟩)) session))

/-- The reasons for which an input itself fails sessions. -/
def Reason (now : Moment) (s : Actor) : Input → SessionId → Session → IoError → Prop
  | .event _ (.serverNotice notice) _ _ => fun id _ error =>
      id = ⟨notice.sessionId⟩ ∧ error = .serverRejected notice.code
  | .controlDetached _ _ => fun _ session error => controlDependent session = true ∧ error = .controlLost
  | .sweep _ => fun _ session error =>
      (session.expiry ≤ now.unixSecs ∧ error = .sessionExpired) ∨
        (error = .graceExpired ∧ s.controlAvailable = false ∧
          ∃ deadline, s.detachedDeadline = some deadline ∧ deadline ≤ now.instant)
  | _ => fun _ _ _ => False

/-- The writes about the paths of a session that the handler of an input makes. -/
def Input.Marks : Input → SessionId → Mark → Prop
  | .pathSelected id _ => fun other mark => other = id ∧ (mark = .selected ∨ mark = .status)
  | .promoted id _ | .sessionFinished id => fun other mark => other = id ∧ mark = .status
  | .relayAuthenticated id => fun other mark => other = id ∧ (mark = .ready ∨ mark = .manager ∨ mark = .status)
  | _ => fun _ _ => False

/-- What is known of every session for which the input opens the next generation of its peer. -/
def Input.Follows (runtime : Runtime) (follows : Session → Prop) (now : Moment) (s : Actor) : Input → Prop
  | .event generation (.rendezvous envelope) _ _ =>
      s.controlAvailable = true → s.generation = generation → now.unixSecs < envelope.expiresUnixSecs →
        ∀ session ∈ s.sessions.lookup envelope.sessionId,
          verified runtime session envelope = true → Advances envelope session → follows session
  | .event generation (.peerIdentityBinding binding) _ _ =>
      s.controlAvailable = true → s.generation = generation →
        ∀ session ∈ s.sessions.lookup ⟨binding.sessionId⟩, ∀ key ∈ (bindingKey runtime session binding).toOption,
          session.peerKey = none → PendingFollows runtime follows ⟨binding.sessionId⟩ session.pending
            (s.put ⟨binding.sessionId⟩ (clearPending (setPeerKey key session)))
  | _ => True

theorem Input.follows_of_forall {follows : Session → Prop} (hf : ∀ session, follows session) (i : Input) :
    i.Follows runtime follows now s := by
  unfold Input.Follows
  split
  · exact fun _ _ _ session _ _ _ => hf session
  · exact fun _ _ session _ key _ _ => pendingFollows_of_forall hf _ _
  · trivial

section Open

variable {envelope : RendezvousEnvelope} {request : RendezvousRequest}

def Unused (id : SessionId) (s : Actor) : Prop :=
  s.sessions.lookup id = none ∧ ∀ envelope ∈ s.trace.sent, envelope.sessionId ≠ id

/-- The request of a session that was just inserted is signed. -/
def Announcing (runtime : Runtime) (id : SessionId) (request : RendezvousRequest) (envelope : RendezvousEnvelope)
    (s : Actor) : Prop :=
  ∃ session, Unannounced id session s ∧
    signedEnvelope runtime s id session.peer 1 session.expiry (.request request) = .ok envelope

theorem does_sendEnvelope : Does (Change runtime why follows marks) (Announcing runtime id request envelope)
    (sendEnvelope envelope) fun _ _ => True := by
  rintro s r t ⟨session, hu, he⟩ h
  rcases sendEnvelope_cases h with ⟨_, _, rfl⟩ | ⟨hroom, _, rfl⟩
  · exact ⟨.refl, fun _ _ => trivial⟩
  · exact ⟨.single (.announce hu he hroom), fun _ _ => trivial⟩

theorem announcing_congr (hst : t.sessions = s.sessions) (hsent : t.trace.sent = s.trace.sent)
    (hv : t.version = s.version) (h : Announcing runtime id request envelope s) :
    Announcing runtime id request envelope t := by
  obtain ⟨session, hu, he⟩ := h
  refine ⟨session, ⟨hst ▸ hu.found, hu.role, hu.nextStep, hu.generation, hsent ▸ hu.unsent⟩, ?_⟩
  rwa [signedEnvelope_congr hv (by rw [hst])]

theorem announcing_opened {peer exportName : String} {expiry : UInt64} {resolveOnly : Bool} {reply : Nat}
    (hs : Unused id s) (he : signedEnvelope runtime s id peer 1 expiry (.request request) = .ok envelope) :
    Announcing runtime id request envelope
      (s.enter id (initiatorSession runtime s (s.epochs + 1) peer exportName expiry resolveOnly reply)) := by
  refine ⟨_, ⟨lookup_put_self, rfl, rfl, rfl, hs.2⟩, ?_⟩
  have hsame : signedEnvelope runtime
      (s.enter id (initiatorSession runtime s (s.epochs + 1) peer exportName expiry resolveOnly reply)) id peer 1 expiry
      (.request request) = signedEnvelope runtime s id peer 1 expiry (.request request) := by
    refine signedEnvelope_congr ?_ ?_
    · rfl
    have hl : (s.enter id (initiatorSession runtime s (s.epochs + 1) peer exportName expiry resolveOnly reply)).sessions.lookup
        id = some (initiatorSession runtime s (s.epochs + 1) peer exportName expiry resolveOnly reply) := lookup_put_self
    rw [hl, hs.1]
    rfl
  exact hsame.trans he

theorem beginOpen_changes {peer exportName : String} {resolveOnly : Bool} {reply : Nat} (hs : Unused id s)
    (h : beginOpen runtime now id peer exportName resolveOnly reply s = some (r, t)) :
    ∃ u, Head runtime now (.opening id peer exportName resolveOnly reply) s u ∧ Changes runtime why follows marks u t := by
  rcases read_bind_cases h with ⟨_, h, _⟩ | ⟨available, hav, hr⟩
  · exact nomatch h
  obtain rfl := Except.ok.inj hav
  split at hr
  · exact ⟨_, .skip _ _, (makes_emit _ rfl rfl _ _ _ trivial hr).1⟩
  next hav =>
  split at hr
  · exact ⟨_, .skip _ _, (makes_emit _ rfl rfl _ _ _ trivial hr).1⟩
  rcases read_bind_cases hr with ⟨_, _, hr⟩ | ⟨requested, _, hr⟩
  · obtain ⟨_, rfl⟩ := Prod.mk.inj hr
    exact ⟨_, .skip _ _, .refl⟩
  rcases read_bind_cases hr with ⟨_, _, hr⟩ | ⟨envelope, he, hr⟩
  · obtain ⟨_, rfl⟩ := Prod.mk.inj hr
    exact ⟨_, .skip _ _, .refl⟩
  rcases bind_cases hr with ⟨_, _, hu, _⟩ | ⟨_, u, hu, hr⟩
  · exact nomatch hu
  obtain ⟨_, rfl⟩ := Prod.mk.inj (Option.some.inj hu)
  refine ⟨_, .opened peer exportName (saturatingAdd now.unixSecs sessionTtlSecs) resolveOnly reply
    (Bool.eq_true_of_not_eq_false hav) hs.1, ?_⟩
  have hsend : Does (Change runtime why follows marks) (Announcing runtime id ⟨requested⟩ envelope) (sendEnvelope envelope)
      fun _ _ => True := does_sendEnvelope
  have hrest : Does (Change runtime why follows marks) (Announcing runtime id ⟨requested⟩ envelope)
      (if resolveOnly then sendEnvelope envelope else requestObservation runtime id >>= fun _ => sendEnvelope envelope)
      fun _ _ => True := by
    apply Does.ite fun _ => hsend
    intro _
    exact Does.bind (does_requestObservation fun _ _ hst hsent hv hs => announcing_congr hst hsent hv hs) fun _ => hsend
  exact (hrest _ _ _ (announcing_opened hs he) hr).1

end Open

section Paths

variable {kind : PathKind} {handle : PathHandle}

theorem makes_recordPath (hstatus : marks id .status) (exportName : String) (kind : PathKindStatus) :
    Makes runtime why follows marks (recordPath now exportName kind) :=
  Does.update (fun _ _ => .mark hstatus _) fun _ _ => trivial

theorem makes_startPathManager (hready : marks id .ready) (hmanager : marks id .manager) (hstatus : marks id .status) :
    Makes runtime why follows marks (startPathManager runtime now id) := by
  apply Makes.bind (makes_read _)
  intro p2p
  apply does_getSession
  intro session
  apply Makes.does
  apply Makes.bind (makes_read _)
  intro _
  apply Makes.bind (makes_editSession (fun _ => .relayReady hready) fun _ _ => .kept rfl rfl rfl)
  intro _
  apply Makes.bind (makes_recordPath hstatus _ _)
  intro _
  apply Makes.bind (makes_read _)
  intro _
  apply Makes.bind (makes_editSession (fun _ => .manager hmanager) fun _ _ => .kept rfl rfl rfl)
  intro _
  apply Does.ite _ fun _ => makes_connecting hmanager _
  intro _
  exact (makes_editSession (fun _ => .takeDirectAttempt) fun _ _ => .kept rfl rfl rfl).bind fun _ => makes_connecting hmanager _

theorem value_of_new {value : UInt64} {generation : CandidateGeneration}
    (h : okOr (CandidateGeneration.new value) IoError.invalid = .ok generation) : generation.value = value := by
  have h := okOr_eq_ok.mp h
  rw [CandidateGeneration.new] at h
  split at h
  · rw [← Option.some.inj h]
  · exact nomatch h

theorem beginRecheck_changes {requested : UInt64} {cancelled : Bool} {reply : Nat}
    (h : beginRecheck runtime now id requested cancelled reply s = some (r, t)) :
    ∃ u, Head runtime now (.buildRecheck id requested cancelled reply) s u ∧ Changes runtime why follows marks u t := by
  rcases read_bind_cases h with ⟨_, _, hr⟩ | ⟨session, hs, hr⟩
  · obtain ⟨_, rfl⟩ := Prod.mk.inj hr
    exact ⟨_, .skip _ _, .refl⟩
  have hl := okOr_eq_ok.mp hs
  split at hr
  · exact ⟨_, .skip _ _, (makes_emit _ rfl rfl _ _ _ trivial hr).1⟩
  next hdue =>
  split at hr
  · exact ⟨_, .skip _ _, (makes_editSession (fun _ => .recheckReply reply) (fun _ _ => ⟨.inl, .inl, fun _ => .inl⟩) _ _ _ trivial hr).1⟩
  next hrole =>
  rcases read_bind_cases hr with ⟨_, _, hr⟩ | ⟨generation, hg, hr⟩
  · obtain ⟨_, rfl⟩ := Prod.mk.inj hr
    exact ⟨_, .skip _ _, .refl⟩
  have hinitiator : session.role = .initiator := by
    cases hr : session.role with
    | initiator => rfl
    | responder => exact absurd hr hrole
  have hrest : Makes runtime why follows marks (requestObservation runtime id >>= fun _ => sendCandidates runtime id) :=
    makes_requestObservation.bind fun _ => makes_sendCandidates
  exact ⟨_, .recheck requested cancelled reply hl (Bool.eq_true_of_not_eq_false hdue) hinitiator (value_of_new hg),
    (hrest _ _ _ trivial ((bind_of_ok (enterGeneration_of_lookup hl) _).symm.trans hr)).1⟩

theorem makes_reportSelection : Makes runtime why follows marks (reportSelection runtime id kind) := by
  apply does_getSession
  intro session
  exact Makes.does (Does.ite (fun _ => makes_sendPayload rfl nofun) fun _ => makes_pure ())

theorem makes_selectRelay (hselected : marks id .selected) (session : Session) : Makes runtime why follows marks (selectRelay id session) := by
  apply Makes.bind
  · intro s r t _ h
    refine ⟨?_, fun _ _ => trivial⟩
    rcases editSession_cases h with ⟨_, _, rfl⟩ | ⟨session, hl, _, rfl⟩
    · exact .refl
    · have hselect : Change runtime why follows marks s (s.put id (setSelectedKind .relay session)) :=
        .edit hl (.selectedKind _ hselected) (.kept rfl rfl rfl)
      have htake := ReflTransGen.single hselect |>.tail (.edit lookup_put_self .takeReply (.kept rfl rfl rfl))
      rwa [put_put] at htake
  · intro _
    exact (makes_read _).bind fun _ => makes_emit _ rfl rfl

/-- What is done with a direct path that has been selected. -/
def carry (id : SessionId) (kind : PathKind) (reply : Option Nat) : PathHandle → Act Unit
  | .other => refuse .invalid
  | .tcp | .quic => emit (.carrying id kind reply)

theorem makes_selectDirect (hselected : marks id .selected) (session : Session) :
    Makes runtime why follows marks (selectDirect id kind handle session) := by
  apply Makes.bind (makes_editSession (fun _ => .takeReply) fun _ _ => .kept rfl rfl rfl)
  intro _
  have hrest : Makes runtime why follows marks (editSession id (setSelectedKind kind) >>= fun _ =>
      carry id kind session.reply handle) := by
    apply Makes.bind (makes_editSession (fun _ => .selectedKind kind hselected) fun _ _ => .kept rfl rfl rfl)
    intro _
    cases handle with
    | other => exact makes_refuse _
    | tcp | quic => exact makes_emit _ rfl rfl
  exact Does.ite (fun _ => (makes_emit _ rfl rfl).bind fun _ => hrest) fun _ => hrest

theorem makes_pathSelected (hselected : marks id .selected) (hstatus : marks id .status) :
    Makes runtime why follows marks (pathSelected runtime now id kind handle) := by
  apply Makes.bind (makes_read _)
  intro found
  apply Does.ite fun _ => makes_read _
  intro _
  apply Makes.bind makes_reportSelection
  intro _
  apply does_getSession
  intro session
  apply Makes.does
  apply Makes.bind (makes_read _)
  intro _
  apply Makes.bind (makes_recordPath hstatus _ _)
  intro _
  exact Does.ite (fun _ => makes_selectRelay hselected session) fun _ => makes_selectDirect hselected session

theorem makes_handleDirectResult (hselected : marks id .selected) (hstatus : marks id .status)
    (result : Except PathError (PathKind × PathHandle)) :
    Makes runtime why follows marks (handleDirectResult runtime now id result) := by
  cases result with
  | error =>
      apply Makes.bind (makes_read _)
      intro found
      cases found with
      | none => exact makes_ensureRelayRequest
      | some session => exact (makes_recordPath hstatus _ _).bind fun _ => makes_ensureRelayRequest
  | ok => exact makes_pathSelected hselected hstatus

theorem makes_promote (hstatus : marks id .status) : Makes runtime why follows marks (promote now id kind) := by
  apply Makes.bind (makes_read _)
  intro found
  cases found with
  | none => exact makes_pure ()
  | some session => exact Does.ite (fun _ => makes_recordPath hstatus _ _) fun _ => makes_pure ()

theorem answer_cases {reply : Option Nat} {result : Except IoError Opened} (h : answer reply result s = some (r, t)) :
    r = .ok () ∧ ∃ effects, t = { s with effects } := by
  cases reply with
  | none =>
      obtain ⟨rfl, rfl⟩ := Prod.mk.inj (Option.some.inj h)
      exact ⟨rfl, _, rfl⟩
  | some reply =>
      obtain ⟨rfl, rfl⟩ := Prod.mk.inj (Option.some.inj h)
      exact ⟨rfl, _, rfl⟩

theorem answer_post {reply : Option Nat} {result : Except IoError Opened} {envelope : RendezvousEnvelope}
    (h : answer reply result s = some (r, t)) : answer reply result (s.post envelope) = some (r, t.post envelope) := by
  cases reply with
  | none =>
      obtain ⟨rfl, rfl⟩ := Prod.mk.inj (Option.some.inj h)
      rfl
  | some reply =>
      obtain ⟨rfl, rfl⟩ := Prod.mk.inj (Option.some.inj h)
      rfl

/-- The last envelope of a session is sent once the session is gone. -/
theorem makes_finishSession (hstatus : marks id .status) : Makes runtime why follows marks (finishSession runtime id) := by
  apply does_find
  intro found
  cases found with
  | none => exact (makes_pure ()).does
  | some session =>
      intro s r t hs h
      refine ⟨?_, fun _ _ => trivial⟩
      rcases bind_cases h with ⟨_, _, hu, _⟩ | ⟨_, _, hu, h⟩
      · exact nomatch hu
      obtain ⟨_, rfl⟩ := Prod.mk.inj (Option.some.inj hu)
      rcases bind_cases h with ⟨_, _, hu, _⟩ | ⟨_, _, hu, h⟩
      · exact nomatch hu
      obtain ⟨_, rfl⟩ := Prod.mk.inj (Option.some.inj hu)
      rcases bind_cases h with ⟨_, _, ha, _⟩ | ⟨_, u, ha, hr⟩
      · exact nomatch (answer_cases ha).1
      have hdrop : Changes runtime why follows marks s u :=
        ((ReflTransGen.single (.finish hs.2)).tail (.mark hstatus _)).trans (makes_answer _ _ _ _ _ trivial ha).1
      rcases read_bind_cases hr with ⟨_, h, _⟩ | ⟨current, _, hr⟩
      · exact nomatch h
      split at hr
      · obtain ⟨⟨result, v⟩, hv, hr⟩ := Option.map_eq_some_iff.mp hr
        obtain ⟨_, rfl⟩ := Prod.mk.inj hr
        rcases read_bind_cases hv with ⟨_, _, hv⟩ | ⟨envelope, he, hv⟩
        · obtain ⟨_, rfl⟩ := Prod.mk.inj hv
          exact hdrop
        rcases sendEnvelope_cases hv with ⟨_, _, rfl⟩ | ⟨hroom, _, rfl⟩
        · exact hdrop
        · obtain ⟨_, effects, rfl⟩ := answer_cases ha
          have hpost : Changes runtime why follows marks s ((s.drop id).post envelope) := .single (.finishPost hs.2 he hroom)
          exact (hpost.tail (.mark hstatus _)).trans (makes_answer _ _ _ _ _ trivial (answer_post ha)).1
      · obtain ⟨_, rfl⟩ := Prod.mk.inj (Option.some.inj hr)
        exact hdrop

end Paths

section Control

theorem does_failSession {Q : Actor → Prop} {error : IoError}
    (hw : ∀ s session, P s → s.sessions.lookup id = some session →
      error = .closed ∨ error = .exportRejected ∨ why id session error)
    (hkeep : ∀ s, P s → Q s) (hfail : ∀ s, P s → Q (s.fail id error))
    (heffects : ∀ s effects, Q s → Q { s with effects }) :
    Does (Change runtime why follows marks) P (failSession id error) fun _ => Q := by
  apply does_find
  intro found
  cases found with
  | none => exact Does.pure () fun s hs => hkeep s hs.1
  | some session =>
      apply Does.bind (Q := fun _ => Q) _ fun _ => does_answer heffects _ _
      exact Does.update (fun s hs => .fail hs.2 (hw s session hs.1 hs.2)) fun s hs => hfail s hs.1

theorem does_failAll {p : Session → Bool} {error : IoError}
    (hw : ∀ s id session, P s → p session = true → why id session error)
    (hfail : ∀ s id, P s → P (s.fail id error)) (heffects : ∀ s effects, P s → P { s with effects })
    (order : List SessionId) : Does (Change runtime why follows marks) P (failAll p error order) fun _ => P := by
  induction order with
  | nil => exact Does.pure () fun _ hs => hs
  | cons id rest ih =>
      apply does_find
      intro found
      apply Does.ite
      · intro hp
        apply Does.bind (Q := fun _ => P) _ fun _ => ih
        apply does_failSession _ (fun _ hs => hs.1) (fun s hs => hfail s id hs.1) heffects
        intro s session hs hl
        rw [← hs.2, hl] at hp
        exact .inr (.inr (hw s id session hs.1 hp))
      · intro _
        exact ih.weaken fun _ hs => hs.1

theorem does_sweep (s : Actor) (order : List SessionId) :
    Does (Change runtime (Reason now s (.sweep order)) follows marks)
      (fun t => t.controlAvailable = s.controlAvailable ∧ t.detachedDeadline = s.detachedDeadline)
      (expireSessions now order >>= fun _ => expireControlGrace now order) fun _ _ => True := by
  apply Does.bind
  · apply does_failAll (P := fun t => t.controlAvailable = s.controlAvailable ∧ t.detachedDeadline = s.detachedDeadline)
    · intro _ _ session _ hp
      exact .inl ⟨of_decide_eq_true hp, rfl⟩
    · exact fun _ _ hs => hs
    · exact fun _ _ hs => hs
  intro _
  apply Does.bind (Q := fun elapsed _ => elapsed = true → s.controlAvailable = false ∧
    ∃ deadline, s.detachedDeadline = some deadline ∧ deadline ≤ now.instant)
  · apply Does.read
    intro t elapsed ht helapsed hok
    obtain rfl := Except.ok.inj helapsed
    rw [ht.1, ht.2] at hok
    simpa only [Bool.and_eq_true, Bool.not_eq_true', Option.any_eq_true, decide_eq_true_eq] using hok
  intro elapsed
  apply Does.ite fun _ => Does.pure () fun _ _ => trivial
  intro helapsed
  have helapsed : elapsed = true := Bool.eq_true_of_not_eq_false helapsed
  apply Does.bind (Q := fun _ _ => s.controlAvailable = false ∧
    ∃ deadline, s.detachedDeadline = some deadline ∧ deadline ≤ now.instant)
  · exact Does.update (fun _ hs => .graceOver fun _ _ => .inr ⟨rfl, hs helapsed⟩) fun _ hs => hs helapsed
  intro _
  apply Does.conseq (Q := fun _ _ => s.controlAvailable = false ∧
    ∃ deadline, s.detachedDeadline = some deadline ∧ deadline ≤ now.instant) _ (fun _ hs => hs) fun _ _ _ => trivial
  apply does_failAll
  · exact fun _ _ _ hs _ => .inr ⟨rfl, hs⟩
  · exact fun _ _ hs => hs
  · exact fun _ _ hs => hs

theorem detachControl_changes {generation : UInt64} {order : List SessionId}
    (h : detachControl runtime now generation order s = some (r, t)) :
    ∃ u, Head runtime now (.controlDetached generation order) s u ∧
      Changes runtime (Reason now s (.controlDetached generation order)) follows marks u t := by
  rcases read_bind_cases h with ⟨_, h, _⟩ | ⟨current, hcurrent, hr⟩
  · exact nomatch h
  obtain rfl := Except.ok.inj hcurrent
  split at hr
  · obtain ⟨_, rfl⟩ := Prod.mk.inj (Option.some.inj hr)
    exact ⟨_, .skip _ _, .refl⟩
  · next hcurrent =>
    obtain ⟨hav, hg⟩ := Bool.and_eq_true_iff.mp (Bool.eq_true_of_not_eq_false hcurrent)
    obtain rfl := of_decide_eq_true hg
    rcases bind_cases hr with ⟨_, _, hu, _⟩ | ⟨_, u, hu, hall⟩
    · exact nomatch hu
    obtain ⟨_, rfl⟩ := Prod.mk.inj (Option.some.inj hu)
    refine ⟨_, .detached order hav, ?_⟩
    have hdoes : Does (Change runtime (Reason now s (.controlDetached s.generation order)) follows marks) (fun _ => True)
        (failAll controlDependent .controlLost order) fun _ _ => True :=
      does_failAll (fun _ _ _ _ hp => ⟨hp, rfl⟩) (fun _ _ _ => trivial) (fun _ _ _ => trivial) order
    exact (hdoes _ _ _ trivial hall).1

theorem controlAttached_changes {generation : UInt64} {version : ProtocolVersion}
    (h : controlAttached generation version s = some (r, t)) :
    ∃ u, Head runtime now (.controlAttached generation version) s u ∧ Changes runtime why follows marks u t := by
  rcases read_bind_cases h with ⟨_, _, hr⟩ | ⟨_, hg, hr⟩
  · obtain ⟨_, rfl⟩ := Prod.mk.inj hr
    exact ⟨_, .skip _ _, .refl⟩
  · obtain ⟨_, rfl⟩ := Prod.mk.inj (Option.some.inj hr)
    exact ⟨_, .attached version (require_eq_ok.mp hg), .refl⟩

end Control

section Events

variable {bind : BindResult} {full : Bool}

theorem makes_useCachedIp : Makes runtime why follows marks (useCachedIp runtime now id) := by
  apply Makes.bind (makes_read _)
  intro ip
  apply Makes.bind (makes_read _)
  intro cache
  apply Makes.bind (makes_editSession (fun _ => .cachedObservedIp _) fun _ _ => .kept rfl rfl rfl)
  intro _
  exact makes_sendCandidates.bind fun _ => makes_ensureDirect

theorem makes_startObservation {grant : ObservationGrant} {socket : SocketAddress} :
    Makes runtime why follows marks (startObservation id grant socket) := by
  apply does_getSession
  intro session
  exact Does.update (fun _ hs => .observe hs.2 _ _) fun _ _ => trivial

/-- What is done for a waiter, by the result of the bind. -/
def observe (runtime : Runtime) (now : Moment) (id : SessionId) (grant : ObservationGrant) : BindResult → Act Unit
  | .addrInUse => useCachedIp runtime now id
  | .failed => refuse .system
  | .bound socket => startObservation id grant socket

theorem handleObservationGrant_changes {grant : ObservationGrant} (hav : s.controlAvailable = true)
    (h : handleObservationGrant runtime now bind grant s = some (r, t)) :
    ∃ u, Head runtime now (.event s.generation (.observationGrant grant) bind full) s u ∧ Changes runtime why follows marks u t := by
  unfold handleObservationGrant at h
  split at h
  · next hexp =>
    obtain ⟨_, rfl⟩ := Prod.mk.inj (Option.some.inj h)
    exact ⟨_, .ungranted bind full hav (.inl hexp), .refl⟩
  next hlive =>
  split at h
  · next hend =>
    obtain ⟨_, rfl⟩ := Prod.mk.inj (Option.some.inj h)
    exact ⟨_, .ungranted bind full hav (.inr (.inl hend)), .refl⟩
  rcases read_bind_cases h with ⟨_, h, _⟩ | ⟨waiters, hw, h⟩
  · cases h
  obtain rfl := Except.ok.inj hw
  cases hw : s.observationWaiters with
  | nil =>
      rw [hw] at h
      obtain ⟨_, rfl⟩ := Prod.mk.inj (Option.some.inj h)
      exact ⟨_, .ungranted bind full hav (.inr (.inr hw)), .refl⟩
  | cons id rest =>
      rw [hw] at h
      rcases bind_cases h with ⟨_, _, hu, _⟩ | ⟨_, v, hu, hv⟩
      · cases hu
      obtain ⟨_, rfl⟩ := Prod.mk.inj (Option.some.inj hu)
      rcases bind_cases hv with ⟨_, _, hu, _⟩ | ⟨_, u, hu, hr⟩
      · cases hu
      obtain ⟨_, rfl⟩ := Prod.mk.inj (Option.some.inj hu)
      have hrest : Makes runtime why follows marks (getSession id >>= fun _ =>
          observe runtime now id grant bind) := by
        apply does_getSession
        intro session
        apply Makes.does
        cases bind with
        | addrInUse => exact makes_useCachedIp
        | failed => exact makes_refuse _
        | bound socket => exact makes_startObservation
      have hchanges : Changes runtime why follows marks
          ({ s with observationWaiters := s.observationWaiters.tail }.grant (some id)) t := (hrest _ _ _ trivial hr).1
      rw [hw, List.tail_cons] at hchanges
      exact ⟨_, .granted bind full hav (UInt64.not_le.mp hlive) hw, hchanges⟩

theorem handleEnvelope_changes {envelope : RendezvousEnvelope} (hav : s.controlAvailable = true)
    (hf : (Input.event s.generation (.rendezvous envelope) bind full).Follows runtime follows now s)
    (h : handleEnvelope runtime now envelope s = some (r, t)) :
    ∃ u, Head runtime now (.event s.generation (.rendezvous envelope) bind full) s u ∧
      Changes runtime why follows marks u t := by
  rcases read_bind_cases h with ⟨_, _, hr⟩ | ⟨_, hlive, hr⟩
  · obtain ⟨_, rfl⟩ := Prod.mk.inj hr
    exact ⟨_, .skip _ _, .refl⟩
  have hf := hf hav rfl (require_eq_ok.mp hlive)
  rcases read_bind_cases hr with ⟨_, h, _⟩ | ⟨found, hfound, hr⟩
  · exact nomatch h
  obtain rfl := Except.ok.inj hfound
  cases hl : s.sessions.lookup envelope.sessionId with
  | some session =>
      rw [hl] at hr
      dsimp only at hr
      split at hr
      · next hverified =>
        have hfollow : Follows follows envelope s := by
          intro session' hl'
          obtain rfl := Option.some.inj (hl.symm.trans hl')
          exact hf session hl hverified
        exact ⟨_, .skip _ _, (does_applyVerified _ _ _ hfollow hr).1⟩
      · exact ⟨_, .skip _ _, (makes_bufferEnvelope _ _ _ trivial hr).1⟩
  | none =>
      rw [hl] at hr
      cases hp : envelope.payload.asRequest with
      | none =>
          rw [hp] at hr
          obtain ⟨_, rfl⟩ := Prod.mk.inj (Option.some.inj hr)
          exact ⟨_, .skip _ _, .refl⟩
      | some request =>
          rw [hp] at hr
          have hrest : Makes runtime why follows marks (requestObservation runtime envelope.sessionId >>= fun _ =>
              lookupIdentity envelope.sessionId) := makes_requestObservation.bind fun _ => makes_lookupIdentity
          exact ⟨_, .answered bind full hav hl (asRequest_eq_some.mp hp), (hrest _ _ _ trivial hr).1⟩

theorem handleBinding_changes {binding : PeerIdentityBinding} (hav : s.controlAvailable = true)
    (hf : (Input.event s.generation (.peerIdentityBinding binding) bind full).Follows runtime follows now s)
    (h : handleBinding runtime binding s = some (r, t)) :
    ∃ u, Head runtime now (.event s.generation (.peerIdentityBinding binding) bind full) s u ∧
      Changes runtime why follows marks u t := by
  rcases read_bind_cases h with ⟨_, _, hr⟩ | ⟨session, hs, hr⟩
  · obtain ⟨_, rfl⟩ := Prod.mk.inj hr
    exact ⟨_, .skip _ _, .refl⟩
  have hl := okOr_eq_ok.mp hs
  rcases read_bind_cases hr with ⟨_, _, hr⟩ | ⟨key, hk, hr⟩
  · obtain ⟨_, rfl⟩ := Prod.mk.inj hr
    exact ⟨_, .skip _ _, .refl⟩
  refine ⟨_, .bound bind full hav hl hk, ?_⟩
  rcases read_bind_cases ((bind_of_ok (editSession_of_lookup hl) _).symm.trans hr) with ⟨_, _, hr⟩ | ⟨_, hfirst, hr⟩
  · obtain ⟨_, rfl⟩ := Prod.mk.inj hr
    exact .refl
  have hbound : (s.put ⟨binding.sessionId⟩ (setPeerKey key session)).sessions.lookup ⟨binding.sessionId⟩ =
      some (setPeerKey key session) := lookup_put_self
  have hpending := (bind_of_ok (editSession_of_lookup hbound) _).symm.trans hr
  rw [put_put] at hpending
  have hcleared : Changes runtime why follows marks (s.put ⟨binding.sessionId⟩ (setPeerKey key session))
      (s.put ⟨binding.sessionId⟩ (clearPending (setPeerKey key session))) := by
    have hclear : Changes runtime why follows marks _ _ := .single (.edit hbound .clearPending ⟨.inl, .inl, fun _ hin => nomatch hin⟩)
    rwa [put_put] at hclear
  have hfollow := hf hav rfl session hl key (by rw [hk]; rfl) (require_eq_ok.mp hfirst)
  exact hcleared.trans (does_applyPending _ _ _ _ hfollow hpending).1

theorem punchGrantFits_eq_true {grant : PunchGrant} (h : punchGrantFits session grant = true) :
    grant.generation = session.generation.value := by
  simp only [punchGrantFits, Bool.and_eq_true, decide_eq_true_eq] at h
  exact h.1.1.1.1.1.1

theorem makes_handlePunchGrant {grant : PunchGrant} : Makes runtime why follows marks (handlePunchGrant runtime grant) := by
  apply does_find
  intro found
  cases found with
  | none => exact (makes_pure ()).does
  | some session =>
      apply Does.ite fun _ => (makes_pure ()).does
      intro hfits
      have hg := punchGrantFits_eq_true (Bool.eq_true_of_not_eq_false hfits)
      apply Does.bind (Q := fun _ _ => True) _ fun _ => makes_ensureDirect
      refine does_editSession ?_ (fun _ _ _ _ => trivial) fun _ _ _ => .kept rfl rfl rfl
      intro s session' hs hl
      obtain rfl : session' = session := Option.some.inj (hl.symm.trans hs.2)
      exact .punchGrant grant hg

theorem makes_handleRelayFrame {frame : PeerRelayFrame} : Makes runtime why follows marks (handleRelayFrame full frame) := by
  apply Makes.bind (makes_read _)
  intro found
  cases found with
  | none => exact makes_pure ()
  | some worker => exact Does.ite (fun _ => makes_refuse _) fun _ => makes_emit _ rfl rfl

theorem handleEvent_changes {event : ControlEvent} (hav : s.controlAvailable = true)
    (hf : (Input.event s.generation event bind full).Follows runtime follows now s)
    (h : handleEvent runtime now bind full event s = some (r, t)) :
    ∃ u, Head runtime now (.event s.generation event bind full) s u ∧
      Changes runtime (Reason now s (.event s.generation event bind full)) follows marks u t := by
  cases event with
  | rendezvous envelope => exact handleEnvelope_changes hav hf h
  | peerIdentityBinding binding => exact handleBinding_changes hav hf h
  | peerRelayFrame frame => exact ⟨_, .skip _ _, (makes_handleRelayFrame _ _ _ trivial h).1⟩
  | serverNotice notice =>
      have hdoes : Does (Change runtime (Reason now s (.event s.generation (.serverNotice notice) bind full)) follows marks)
          (fun _ => True) (failSession ⟨notice.sessionId⟩ (.serverRejected notice.code)) fun _ _ => True :=
        makes_failSession fun _ => .inr (.inr ⟨rfl, rfl⟩)
      exact ⟨_, .skip _ _, (hdoes _ _ _ trivial h).1⟩
  | observationGrant grant => exact handleObservationGrant_changes hav h
  | punchGrant grant => exact ⟨_, .skip _ _, (makes_handlePunchGrant _ _ _ trivial h).1⟩

end Events

section Observations

variable {observation : Observation} {addresses : List SocketAddress} {index : Nat}

variable (why) in
theorem recordObserved_changes (h : recordObserved runtime now observation addresses s = some (r, t)) :
    ∃ cache, (s.sessions.lookup observation.sessionId = none ∧ t = { s with observedIpCache := cache }) ∨
      ∃ session, s.sessions.lookup observation.sessionId = some session ∧
        Changes runtime why follows marks ({ s with observedIpCache := cache }.put observation.sessionId
          (setObserved observation.socket (addresses.map (⟨·, observation.epoch⟩)) session)) t := by
  rcases read_bind_cases h with ⟨_, h, _⟩ | ⟨found, hf, hr⟩
  · exact nomatch h
  obtain rfl := Except.ok.inj hf
  rcases bind_cases hr with ⟨_, _, hu, _⟩ | ⟨_, v, hu, hr⟩
  · exact nomatch hu
  obtain ⟨cache, rfl⟩ : ∃ cache, v = { s with observedIpCache := cache } :=
    ⟨_, (Prod.mk.inj (Option.some.inj hu)).2.symm⟩
  refine ⟨cache, ?_⟩
  cases hl : s.sessions.lookup observation.sessionId with
  | none =>
      rw [hl] at hr
      obtain ⟨_, rfl⟩ := Prod.mk.inj (Option.some.inj hr)
      exact .inl ⟨rfl, rfl⟩
  | some session =>
      rw [hl] at hr
      have hrest : Makes runtime why follows marks (if addresses ≠ [] then pure () else (do
          let ip ← (.attempt fun s => (runtime.localIp.toOption).map fun ip => (ip, s) : Act LocalIp)
          let cache ← .read fun s => .ok s.observedIpCache
          editSession observation.sessionId (setCachedObservedIp (cachedObservedIp cache ip now.unixSecs)))) := by
        apply Does.ite fun _ => makes_pure ()
        intro _
        apply Makes.bind
        · apply Does.attempt _ fun _ _ _ _ _ => trivial
          intro s ip t _ h
          obtain ⟨_, _, h⟩ := Option.map_eq_some_iff.mp h
          obtain ⟨_, rfl⟩ := Prod.mk.inj h
          exact .refl
        · intro ip
          exact (makes_read _).bind fun _ => makes_editSession (fun _ => .cachedObservedIp _) fun _ _ => .kept rfl rfl rfl
      have hl' : ({ s with observedIpCache := cache } : Actor).sessions.lookup observation.sessionId = some session := hl
      exact .inr ⟨session, rfl, (hrest _ _ _ trivial ((bind_of_ok (editSession_of_lookup hl') _).symm.trans hr)).1⟩

theorem observationResult_changes {found : Option (List SocketAddress)}
    (h : observationResult runtime now index found s = some (r, t)) :
    ∃ u, Head runtime now (.observationResult index found) s u ∧ Changes runtime why follows marks u t := by
  rcases read_bind_cases h with ⟨_, _, hr⟩ | ⟨observation, ho, hr⟩
  · obtain ⟨_, rfl⟩ := Prod.mk.inj hr
    exact ⟨_, .skip _ _, .refl⟩
  have ho := okOr_eq_ok.mp ho
  rcases bind_cases hr with ⟨_, _, hu, _⟩ | ⟨_, v, hu, hr⟩
  · exact nomatch hu
  obtain ⟨_, rfl⟩ := Prod.mk.inj (Option.some.inj hu)
  cases found with
  | none =>
      obtain ⟨_, rfl⟩ := Prod.mk.inj (Option.some.inj hr)
      exact ⟨_, .unobserved index none s.observedIpCache, .refl⟩
  | some addresses =>
      have hrest : Makes runtime why follows marks (sendCandidates runtime observation.sessionId >>= fun _ =>
          ensureDirect runtime observation.sessionId) := makes_sendCandidates.bind fun _ => makes_ensureDirect
      rcases bind_cases hr with ⟨_, u, hu, hr⟩ | ⟨_, u, hu, hr⟩
      · obtain ⟨_, rfl⟩ := Prod.mk.inj hr
        obtain ⟨cache, ⟨_, rfl⟩ | ⟨session, hl, hchanges⟩⟩ := recordObserved_changes why hu
        · exact ⟨_, .unobserved index (some addresses) cache, .refl⟩
        · exact ⟨_, .observed cache ho hl, hchanges⟩
      · have hsend := (hrest _ _ _ trivial hr).1
        obtain ⟨cache, ⟨_, rfl⟩ | ⟨session, hl, hchanges⟩⟩ := recordObserved_changes why hu
        · exact ⟨_, .unobserved index (some addresses) cache, hsend⟩
        · exact ⟨_, .observed cache ho hl, hchanges.trans hsend⟩

end Observations

section Steps

theorem handleInput_changes {input : Input} (h : handleInput runtime now input s = some (r, t))
    (hp : input.Possible s) (hf : input.Follows runtime follows now s) :
    ∃ u, Head runtime now input s u ∧ Changes runtime (Reason now s input) follows input.Marks u t := by
  cases input with
  | opening => exact beginOpen_changes hp h
  | event generation event bind full =>
      rcases read_bind_cases h with ⟨_, h, _⟩ | ⟨current, hc, hr⟩
      · exact nomatch h
      obtain rfl := Except.ok.inj hc
      split at hr
      · next hcurrent =>
        obtain ⟨hav, hg⟩ := Bool.and_eq_true_iff.mp hcurrent
        obtain rfl := of_decide_eq_true hg
        exact handleEvent_changes hav hf hr
      · obtain ⟨_, rfl⟩ := Prod.mk.inj (Option.some.inj hr)
        exact ⟨_, .skip _ _, .refl⟩
  | controlAttached => exact controlAttached_changes h
  | controlDetached => exact detachControl_changes h
  | pathSelected id result => exact ⟨_, .skip _ _, (makes_handleDirectResult ⟨rfl, .inl rfl⟩ ⟨rfl, .inr rfl⟩ result _ _ _ trivial h).1⟩
  | promoted => exact ⟨_, .skip _ _, (makes_promote ⟨rfl, rfl⟩ _ _ _ trivial h).1⟩
  | sessionFinished => exact ⟨_, .skip _ _, (makes_finishSession ⟨rfl, rfl⟩ _ _ _ trivial h).1⟩
  | relayAuthenticated => exact ⟨_, .skip _ _, (makes_startPathManager ⟨rfl, .inl rfl⟩ ⟨rfl, .inr (.inl rfl)⟩ ⟨rfl, .inr (.inr rfl)⟩ _ _ _ trivial h).1⟩
  | buildRecheck => exact beginRecheck_changes h
  | observationResult => exact observationResult_changes h
  | sweep order => exact ⟨_, .skip _ _, (does_sweep s order _ _ _ ⟨rfl, rfl⟩ h).1⟩

/-- What a step of the actor and its surroundings comes to. -/
inductive Outcome (runtime : Runtime) (follows : Session → Prop) (s : Actor) : Label → Actor → Prop
  | input {now : Moment} {i : Input} {u t : Actor} (hp : i.Possible s) (hu : Head runtime now i s u)
      (ht : Changes runtime (Reason now s i) follows i.Marks u t) : Outcome runtime follows s (.input now i) (removeCancelled t)
  | cancelCaller {id : SessionId} {session : Session} (h : s.sessions.lookup id = some session)
      (hr : session.role = .initiator) : Outcome runtime follows s (.cancelCaller id) (s.put id (setCancelled session))
  | sever {room} (h : s.room.all (room ≤ ·)) : Outcome runtime follows s (.sever room) { s with room := some room }
  | transmit {message rest} (h : s.outbox = message :: rest) :
      Outcome runtime follows s .transmit { s with outbox := rest }

def Label.Follows (runtime : Runtime) (follows : Session → Prop) (s : Actor) : Label → Prop
  | .input now i => i.Follows runtime follows now s
  | _ => True

theorem step_outcome_of_follows {l : Label} (h : Step runtime s l t) (hf : l.Follows runtime follows s) :
    Outcome runtime follows s l t := by
  cases l with
  | input now i =>
      rw [Step, next] at h
      split at h
      · next hp =>
        obtain ⟨⟨result, u⟩, hu, rfl⟩ := Option.map_eq_some_iff.mp h
        obtain ⟨v, hv, hchanges⟩ := handleInput_changes hu hp hf
        exact .input hp hv hchanges
      · exact nomatch h
  | cancelCaller id =>
      obtain ⟨session, hl, h⟩ := Option.bind_eq_some_iff.mp h
      split at h
      · next hr =>
        obtain rfl := Option.some.inj h
        exact .cancelCaller hl hr
      · exact nomatch h
  | sever room =>
      rw [Step, next] at h
      split at h
      · next hroom =>
        obtain rfl := Option.some.inj h
        exact .sever hroom
      · exact nomatch h
  | transmit =>
      rw [Step, next] at h
      split at h
      · exact nomatch h
      · next hne =>
        obtain rfl := Option.some.inj h
        obtain ⟨message, rest, ho⟩ := List.exists_cons_of_ne_nil hne
        rw [ho]
        exact .transmit ho

theorem step_outcome {l : Label} (h : Step runtime s l t) : Outcome runtime (fun _ => True) s l t := by
  apply step_outcome_of_follows h
  cases l with
  | input now i => exact i.follows_of_forall fun _ => trivial
  | cancelCaller | sever | transmit => trivial

end Steps

section Sample

/-- A key and a signature for each name, which only that name's key accepts. -/
def sampleKey (name : String) : DevicePublicKey := ⟨Vector.replicate 32 (if name = "a" then 1 else if name = "b" then 2 else 0)⟩

def sampleSign (envelope : RendezvousEnvelope) : BoundedBytes maxSignatureBytes :=
  ⟨List.replicate 32 ((sampleKey envelope.sender.str).bytes[0]), by simp [maxSignatureBytes]⟩

def sampleVerify (key : DevicePublicKey) (envelope : RendezvousEnvelope) : Bool :=
  envelope.signature.bytes = List.replicate 32 key.bytes[0]

theorem nameA_bounded : "a".utf8ByteSize ≤ maxDeviceNameBytes := by decide

theorem nameB_bounded : "b".utf8ByteSize ≤ maxDeviceNameBytes := by decide

theorem sampleEphemeral_bounded : (List.replicate 32 (9 : UInt8)).length ≤ maxEphemeralPublicKeyBytes := by decide

theorem sampleBindings_bounded : [(⟨.quicUdp, ⟨List.replicate 32 9, sampleEphemeral_bounded⟩⟩ : TransportKeyBinding)].length ≤
    maxTransportKeyBindings := by decide

theorem loopback_size : (#[127, 0, 0, 1] : Array UInt8).size = 4 := rfl

def sampleConfig (observed : Bool) : P2pConfig where
  enabled := true
  preferDirect := true
  allowRelayFallback := true
  reconnectTimeoutSecs := 5
  observationPrimaryAddr := if observed then some "192.0.2.1:7001" else none
  observationAlternateAddr := if observed then some "192.0.2.1:7002" else none

/-- A client on a loopback interface, with or without observation endpoints. -/
def sampleRuntime (name : String) (observed : Bool) : Runtime where
  name := name
  p2p := some (sampleConfig observed)
  identity := sampleKey name
  authorize := fun _ exportName protocol => (exportName = "ssh" ∧ protocol = .tcp) ∨ (exportName = "dns" ∧ protocol = .udp)
  parseKey := fun text => if text = "key-a" then some (sampleKey "a") else if text = "key-b" then some (sampleKey "b") else none
  sign := fun envelope => some (sampleSign envelope)
  verify := sampleVerify
  derives := fun _ _ _ => true
  ephemeral := fun epoch transport =>
    ⟨Vector.replicate 32 (UInt8.ofNat (8 * epoch) + transportTag transport),
      Vector.replicate 32 (UInt8.ofNat (8 * epoch) + transportTag transport)⟩
  sha256 := Sha256.digest
  localSocket := fun _ transport => .ok (.v4 ⟨#[127, 0, 0, 1], loopback_size⟩ (if transport = .quicUdp then 5001 else 5002))
  localIp := .ok ⟨true, true⟩
  adoptsSocket := fun _ => true
  transportOrder := transports

def sampleMoment (secs : Nat) : Moment := ⟨UInt64.ofNat (1000 + secs), UInt64.ofNat ((1000 + secs) * 1000), secs * second⟩

def sampleId (byte : UInt8) : SessionId := ⟨Vector.replicate 32 byte⟩

def sampleVersion : ProtocolVersion := ⟨1, 1⟩

def samplePort (port : UInt16) : SocketAddress := .v4 ⟨#[127, 0, 0, 1], loopback_size⟩ port

/-- An envelope of "a" in the session that it opened with "b". -/
def sampleEnvelope (step : UInt64) (generation : CandidateGeneration) (payload : RendezvousPayload) : RendezvousEnvelope :=
  let envelope : RendezvousEnvelope :=
    ⟨sampleVersion, sampleId 1, ⟨"a", nameA_bounded⟩, ⟨"b", nameB_bounded⟩, step, generation, 1025, payload, ⟨[], Nat.zero_le _⟩⟩
  { envelope with signature := sampleSign envelope }

def sampleArrival (envelope : RendezvousEnvelope) : Label :=
  .input (sampleMoment 0) (.event 1 (.rendezvous envelope) .failed false)

def sampleCandidates (transport : CandidateTransport) (generation : CandidateGeneration) : RendezvousPayload :=
  .candidateSetV2 ⟨true, ⟨[⟨.quicUdp, ⟨List.replicate 32 9, sampleEphemeral_bounded⟩⟩], sampleBindings_bounded⟩,
    ⟨[⟨transport, samplePort 7001, 500, ⟨"local", by decide⟩, generation, 1025, ⟨"loopback", by decide⟩⟩],
      by simp [maxCandidates]⟩⟩

/-- The responder learns the key, accepts, and prepares an attempt for the first candidate set. -/
def samplePrepared : List Label := [
  sampleArrival (sampleEnvelope 1 .INITIAL (.request ⟨⟨"dns", by decide⟩⟩)),
  .input (sampleMoment 0) (.event 1 (.peerIdentityBinding
    ⟨(sampleId 1).bytes, ⟨"a", by decide⟩, ⟨"key-a", by decide⟩, none, false, 1025⟩) .failed false),
  sampleArrival (sampleEnvelope 3 .INITIAL (sampleCandidates .quicUdp .INITIAL))]

def sampleBoth : RendezvousPayload :=
  .candidateSetV2 ⟨true, ⟨[⟨.quicUdp, ⟨List.replicate 32 9, sampleEphemeral_bounded⟩⟩, ⟨.relay, ⟨List.replicate 32 9, sampleEphemeral_bounded⟩⟩],
      by decide⟩,
    ⟨[⟨.quicUdp, samplePort 7001, 500, ⟨"local", by decide⟩, .INITIAL, 1025, ⟨"loopback", by decide⟩⟩],
      by simp [maxCandidates]⟩⟩

/-- The responder has both keys, and each end has asked for the relay. -/
def sampleRelayed : List Label := samplePrepared.take 2 ++ [
  sampleArrival (sampleEnvelope 3 .INITIAL sampleBoth),
  sampleArrival (sampleEnvelope 5 .INITIAL (.relayRequest ⟨true⟩))]

def sampleTaken : Label := .input (sampleMoment 0) (.relayAuthenticated (sampleId 1))

end Sample

end Rustgo.Orchestration
