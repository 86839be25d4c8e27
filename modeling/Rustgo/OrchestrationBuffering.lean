import Rustgo.OrchestrationPairs
import Rustgo.OrchestrationSteps

namespace Rustgo.Orchestration

open Call Checks Coordinator Path Protocol Rendezvous Runs Tables

variable {runtime : Runtime} {s t a b : Actor} {id : SessionId} {session session' : Session} {envelope : RendezvousEnvelope}
  {now : Moment}

section Verified

/-- The check of the generation in `apply_verified`. -/
def Accepts (envelope : RendezvousEnvelope) (session : Session) : Prop :=
  envelope.generation = session.generation ∨ Advances envelope session

instance (envelope : RendezvousEnvelope) (session : Session) : Decidable (Accepts envelope session) :=
  inferInstanceAs (Decidable (_ ∨ _))

theorem sendPeerControl_of_room (h : s.room = none) (message : PeerMessage) :
    sendPeerControl message s = some (.ok (), { s with outbox := s.outbox ++ [message] }) := by
  have hroom : require (s.room ≠ some 0) IoError.closed = .ok () := by
    rw [h]
    rfl
  refine (read_bind_ok (g := fun s : Actor => require (s.room ≠ some 0) IoError.closed) hroom _).trans ?_
  simp only [update_apply, h, Option.map_none]

variable (runtime id) in
theorem requestObservation_of_room (h : s.room = none) : ∃ t, requestObservation runtime id s = some (.ok (), t) ∧
    t.sessions = s.sessions := by
  unfold requestObservation
  split
  · exact ⟨s, rfl, rfl⟩
  · have hsend := sendPeerControl_of_room (s := { s with observationWaiters := s.observationWaiters ++ [id] }) h
      .observationGrantRequest
    refine ⟨_, update_bind_eq (bind_of_ok hsend _), ?_⟩
    rfl

variable (runtime) in
theorem acceptGeneration_of_accepts (hl : s.sessions.lookup envelope.sessionId = some session) (hroom : s.room = none)
    (ha : Accepts envelope session) :
    ∃ t session', acceptGeneration runtime envelope s = some (.ok (), t) ∧
      t.sessions.lookup envelope.sessionId = some session' := by
  by_cases hg : envelope.generation = session.generation
  · refine ⟨s, session, read_bind_eq (okOr_eq_ok.mpr hl) ?_, hl⟩
    rw [if_pos hg]
    rfl
  · have hadvances : Advances envelope session := ha.resolve_left hg
    obtain ⟨t, ht, hsessions⟩ := requestObservation_of_room runtime envelope.sessionId
      (s := s.enter envelope.sessionId (advanceResponder runtime envelope.generation (s.epochs + 1) session)) hroom
    refine ⟨t, _, read_bind_eq (okOr_eq_ok.mpr hl) ?_, hsessions ▸ lookup_put_self⟩
    rw [if_neg hg]
    refine read_bind_eq (a := ()) (require_eq_ok.mpr hadvances.2) ?_
    exact (bind_of_ok (enterGeneration_of_lookup hl) _).trans ht

theorem acceptGeneration_of_not (hl : s.sessions.lookup envelope.sessionId = some session)
    (ha : ¬ Accepts envelope session) : acceptGeneration runtime envelope s = some (.error .invalid, s) := by
  refine read_bind_eq (okOr_eq_ok.mpr hl) ?_
  have hg : envelope.generation ≠ session.generation := fun hg => ha (.inl hg)
  rw [if_neg hg]
  apply read_bind_error
  exact if_neg fun hadvances => ha (.inr ⟨hg, hadvances⟩)

/-- The envelopes that are recorded when one is handled. -/
def recorded (envelope : RendezvousEnvelope) (session : Session) : List RendezvousEnvelope :=
  if Accepts envelope session then [envelope] else []

variable (runtime) in
/-- Alike actors handle a verified envelope alike. -/
theorem applyVerified_alike (h : Alike envelope.sessionId s t)
    (hl : s.sessions.lookup envelope.sessionId = some session) :
    ∃ r s' t', applyVerified runtime envelope s = some (r, s') ∧ applyVerified runtime envelope t = some (r, t') ∧
      Alike envelope.sessionId s' t' ∧ Keeps envelope.sessionId (recorded envelope session) s s' ∧
        (¬ Accepts envelope session → r = .error .invalid ∧ s' = s) := by
  by_cases ha : Accepts envelope session
  · obtain ⟨s₁, session₁, haccept, hl₁⟩ := acceptGeneration_of_accepts runtime hl h.room ha
    obtain ⟨_, _, _, t₁, hs₁, ht₁, hkeeps₁, halike₁, hr⟩ := same_acceptGeneration runtime rfl s t h
    obtain ⟨rfl, rfl⟩ := Prod.mk.inj (Option.some.inj (haccept.symm.trans hs₁))
    rw [hr.eq] at ht₁
    obtain ⟨_, s₂, _, t₂, hs₂, ht₂, hkeeps₂, halike₂, hr⟩ := same_edit (raiseNextStep envelope.step) (fun _ => rfl)
      (fun _ => rfl) s₁ t₁ halike₁
    obtain ⟨rfl, rfl⟩ := Prod.mk.inj (Option.some.inj ((editSession_of_lookup hl₁).symm.trans hs₂))
    rw [hr.eq] at ht₂
    let noted (s : Actor) : Actor := { s with trace := { s.trace with applied := s.trace.applied ++ [envelope] } }
    have hnoted : ∀ s, Keeps envelope.sessionId [envelope] s (noted s) := fun s =>
      ⟨rfl, rfl, rfl, fun session h => by rw [h]; rfl⟩
    have halike : Alike envelope.sessionId (noted (s₁.put envelope.sessionId (raiseNextStep envelope.step session₁)))
        (noted t₂) := ⟨by rw [halike₂.eq], halike₂.room, halike₂.session⟩
    obtain ⟨r, s₃, _, t₃, hs₃, ht₃, hkeeps₃, halike₃, hr⟩ := same_applyPayload runtime
      envelope.generation envelope.payload _ _ halike
    rw [hr.eq] at ht₃
    refine ⟨r, s₃, t₃, ?_, ?_, halike₃, ?_, fun hn => absurd ha hn⟩
    · exact (bind_of_ok hs₁ _).trans ((bind_of_ok hs₂ _).trans (update_bind_eq hs₃))
    · exact (bind_of_ok ht₁ _).trans ((bind_of_ok ht₂ _).trans (update_bind_eq ht₃))
    · rw [recorded, if_pos ha]
      exact hkeeps₁.append (hkeeps₂.append ((hnoted _).append hkeeps₃))
  · obtain ⟨session', hl', hbare⟩ : ∃ session', t.sessions.lookup envelope.sessionId = some session' ∧
        bare session' = bare session := by
      rcases h.lookup with ⟨hs, _⟩ | ⟨found, session', hs, ht, hbare⟩
      · exact nomatch hs.symm.trans hl
      · obtain rfl : found = session := Option.some.inj (hs.symm.trans hl)
        exact ⟨session', ht, hbare⟩
    have ha' : ¬ Accepts envelope session' := by
      have heq : Accepts envelope session' = Accepts envelope session := of_bare (Accepts envelope) (fun _ => rfl) hbare
      rwa [heq]
    refine ⟨.error .invalid, s, t, ?_, ?_, h, ?_, fun _ => ⟨rfl, rfl⟩⟩
    · rw [applyVerified, bind_apply, acceptGeneration_of_not hl ha]
      rfl
    · rw [applyVerified, bind_apply, acceptGeneration_of_not hl' ha']
      rfl
    · rw [recorded, if_neg ha]
      exact Keeps.refl s

end Verified

section Arrivals

/-- An envelope, with the clocks at its arrival. -/
structure Arrival where
  now : Moment
  envelope : RendezvousEnvelope

def Arrival.label (generation : UInt64) (arrival : Arrival) : Label :=
  .input arrival.now (.event generation (.rendezvous arrival.envelope) .failed false)

def bindingArrives (generation : UInt64) (now : Moment) (binding : PeerIdentityBinding) : Label :=
  .input now (.event generation (.peerIdentityBinding binding) .failed false)

/-- The envelopes that have not expired when they arrive. -/
def unexpired : List Arrival → List RendezvousEnvelope
  | [] => []
  | arrival :: rest =>
      if arrival.now.unixSecs < arrival.envelope.expiresUnixSecs then arrival.envelope :: unexpired rest
      else unexpired rest

/-- The actor handles the events of the generation and its control connection takes every message. -/
structure Standing (generation : UInt64) (s : Actor) : Prop where
  available : s.controlAvailable = true
  generation : s.generation = generation
  room : s.room = none

variable {generation : UInt64}

theorem next_event_eq (event : ControlEvent) (hs : Standing generation s) :
    next runtime s (.input now (.event generation event .failed false)) =
      (handleEvent runtime now .failed false event s).map fun p => removeCancelled p.2 := by
  have hcurrent : (s.controlAvailable && decide (s.generation = generation)) = true := by
    rw [hs.available, hs.generation, Bool.true_and, decide_eq_true_eq]
  have hinput : handleInput runtime now (.event generation event .failed false) s =
      handleEvent runtime now .failed false event s := by
    refine read_bind_eq rfl ?_
    rw [if_pos hcurrent]
  have hp : (Input.event generation event .failed false).Possible s := trivial
  rw [next, if_pos hp, hinput]

theorem next_event {event : ControlEvent} {r : Except IoError Unit} (hs : Standing generation s)
    (h : handleEvent runtime now .failed false event s = some (r, t)) :
    next runtime s (.input now (.event generation event .failed false)) = some (removeCancelled t) := by
  rw [next_event_eq event hs, h]
  rfl

theorem lookup_removeCancelled (h : ∀ session, s.sessions.lookup id = some session → session.cancelled = false) :
    (removeCancelled s).sessions.lookup id = s.sessions.lookup id := by
  ext session
  rw [removeCancelled, lookup_keep_eq_some]
  constructor
  · exact fun hl => hl.1
  · intro hl
    exact ⟨hl, by rw [h session hl]; rfl⟩

theorem Alike.cancelled (h : Alike id s t)
    (hs : ∀ session, s.sessions.lookup id = some session → session.cancelled = false) :
    ∀ session, t.sessions.lookup id = some session → session.cancelled = false := by
  intro session' hl'
  rcases h.lookup with ⟨_, ht⟩ | ⟨session, found, hl, ht, hbare⟩
  · exact nomatch ht.symm.trans hl'
  · obtain rfl : found = session' := Option.some.inj (ht.symm.trans hl')
    exact (of_bare Session.cancelled (fun _ => rfl) hbare).trans (hs session hl)

theorem Alike.removeLeft (h : Alike id s t)
    (hs : ∀ session, s.sessions.lookup id = some session → session.cancelled = false) :
    Alike id (removeCancelled s) t where
  eq := by rw [h.eq]; rfl
  room := h.room
  session := by rw [lookup_removeCancelled hs, h.session]

theorem Alike.removeRight (h : Alike id s t)
    (hs : ∀ session, s.sessions.lookup id = some session → session.cancelled = false) :
    Alike id s (removeCancelled t) where
  eq := by rw [removeCancelled, h.eq]
  room := h.room
  session := by rw [lookup_removeCancelled (h.cancelled hs), h.session]

theorem Alike.standing (h : Alike id s t) (hs : Standing generation s) : Standing generation t := by
  rw [h.eq]
  exact ⟨hs.available, hs.generation, hs.room⟩

theorem Alike.applied (h : Alike id s t) : t.trace.applied = s.trace.applied := by rw [h.eq]

variable (runtime) in
theorem handleEnvelope_of_expired (h : ¬ now.unixSecs < envelope.expiresUnixSecs) :
    handleEnvelope runtime now envelope s = some (.error .invalid, s) :=
  read_bind_error (g := fun _ => require (now.unixSecs < envelope.expiresUnixSecs) IoError.invalid) (if_neg h) _

variable (runtime) in
theorem handleEnvelope_of_lookup (h : now.unixSecs < envelope.expiresUnixSecs)
    (hl : s.sessions.lookup envelope.sessionId = some session) : handleEnvelope runtime now envelope s =
      if verified runtime session envelope then applyVerified runtime envelope s else bufferEnvelope envelope s := by
  refine read_bind_eq (a := ()) (if_pos h) (read_bind_eq (a := some session) (by rw [hl]) ?_)
  dsimp only
  split <;> rfl

/-- More envelopes wait in the session, and its binding was asked for. -/
def hold (envelopes : List RendezvousEnvelope) (session : Session) : Session :=
  { session with
    pending := session.pending ++ envelopes
    bindingRequested := true }

theorem bufferEnvelope_of_room (hl : s.sessions.lookup envelope.sessionId = some session) (hroom : s.room = none) :
    ∃ r outbox, bufferEnvelope envelope s =
      some (r, { s.put envelope.sessionId (hold [envelope] session) with outbox := outbox }) := by
  have hpush : editSession envelope.sessionId (pushPending envelope) s =
      some (.ok (), s.put envelope.sessionId (pushPending envelope session)) := editSession_of_lookup hl
  have hget : okOr ((s.put envelope.sessionId (pushPending envelope session)).sessions.lookup envelope.sessionId)
      IoError.invalid = .ok (pushPending envelope session) := okOr_eq_ok.mpr lookup_put_self
  by_cases hb : session.bindingRequested = true
  · refine ⟨.ok (), s.outbox, (bind_of_ok hpush _).trans (read_bind_eq hget ?_)⟩
    have hheld : hold [envelope] session = pushPending envelope session := by
      rw [hold, ← hb]
      rfl
    have hrequested : (pushPending envelope session).bindingRequested = true := hb
    rw [if_pos hrequested, hheld]
    rfl
  · have hrequested : ¬ (pushPending envelope session).bindingRequested = true := hb
    have hbound : editSession envelope.sessionId setBindingRequested (s.put envelope.sessionId (pushPending envelope session)) =
        some (.ok (), s.put envelope.sessionId (hold [envelope] session)) := by
      rw [editSession_of_lookup lookup_put_self, put_put]
      rfl
    have hheld : okOr ((s.put envelope.sessionId (hold [envelope] session)).sessions.lookup envelope.sessionId)
        IoError.invalid = .ok (hold [envelope] session) := okOr_eq_ok.mpr lookup_put_self
    let checked (_ : Actor) : Except IoError (BoundedString maxClientNameBytes) :=
      orFail (BoundedString.tryFrom maxClientNameBytes session.peer) .invalid
    cases hpeer : checked s with
    | error e =>
        refine ⟨.error e, s.outbox, (bind_of_ok hpush _).trans (read_bind_eq hget ?_)⟩
        rw [if_neg hrequested]
        exact (bind_of_ok hbound _).trans (read_bind_eq hheld (read_bind_error (g := checked) hpeer _))
    | ok peer =>
        refine ⟨.ok (), s.outbox ++ [.peerIdentityLookup ⟨envelope.sessionId.bytes, peer⟩],
          (bind_of_ok hpush _).trans (read_bind_eq hget ?_)⟩
        rw [if_neg hrequested]
        refine (bind_of_ok hbound _).trans (read_bind_eq hheld (read_bind_eq (g := checked) hpeer ?_))
        exact sendPeerControl_of_room (s := s.put envelope.sessionId (hold [envelope] session)) hroom _

end Arrivals

section Silent

variable {generation : UInt64} {arrival : Arrival}

/-- No envelope is applied to the session until a binding arrives for it. -/
structure Silent (id : SessionId) (generation : UInt64) (s : Actor) : Prop where
  standing : Standing generation s
  unbound : ∀ session, s.sessions.lookup id = some session → session.peerKey = none

theorem Standing.removeCancelled (h : Standing generation s) : Standing generation (removeCancelled s) :=
  ⟨h.available, h.generation, h.room⟩

theorem Silent.removeCancelled (h : Silent id generation s) : Silent id generation (removeCancelled s) where
  standing := h.standing.removeCancelled
  unbound session hl := h.unbound session (lookup_keep_eq_some.mp hl).1

theorem Alike.refl (h : s.room = none) : Alike id s s := ⟨rfl, h, rfl⟩

theorem Standing.keeps {new : List RendezvousEnvelope} (h : Standing generation s) (hk : Keeps id new s t)
    (hroom : t.room = none) : Standing generation t :=
  ⟨hk.controlAvailable.trans h.available, hk.generation.trans h.generation, hroom⟩

variable (runtime) in
theorem openResponder_silent (envelope : RendezvousEnvelope) (request : RendezvousRequest) (h : Standing generation s) :
    ∃ r t, openResponder runtime envelope request s = some (r, t) ∧ Silent envelope.sessionId generation t ∧
      t.trace.applied = s.trace.applied := by
  let u := s.enter envelope.sessionId (responderSession runtime s (s.epochs + 1) envelope request)
  have hsame : SameUnit envelope.sessionId
      (requestObservation runtime envelope.sessionId >>= fun _ => lookupIdentity envelope.sessionId)
      (requestObservation runtime envelope.sessionId >>= fun _ => lookupIdentity envelope.sessionId) :=
    Same.andThen same_requestObservation same_lookupIdentity
  obtain ⟨r, t, _, _, ht, _, hkeeps, halike, _⟩ := hsame u u (.refl h.room)
  have hstanding : Standing generation u := ⟨h.available, h.generation, h.room⟩
  refine ⟨r, t, ht, ⟨hstanding.keeps hkeeps halike.room, ?_⟩, ?_⟩
  · intro session hl
    have hface := hkeeps.session session hl
    rw [show u.sessions.lookup envelope.sessionId = some _ from lookup_put_self] at hface
    exact (congrArg Prod.fst (Option.some.inj hface)).symm
  · exact hkeeps.applied.trans (List.append_nil _)

theorem verified_of_unbound (h : session.peerKey = none) : verified runtime session envelope = false := by
  rw [verified, h]
  rfl

/-- What is done with an envelope of a session that is not there. -/
def answerRequest (runtime : Runtime) (envelope : RendezvousEnvelope) : Option RendezvousRequest → Act Unit
  | none => pure ()
  | some request => openResponder runtime envelope request

variable (runtime) in
theorem silent_arrival (h : Silent id generation s) (hid : arrival.envelope.sessionId = id) :
    ∃ t, next runtime s (arrival.label generation) = some t ∧ Silent id generation t ∧
      t.trace.applied = s.trace.applied := by
  subst hid
  by_cases hnow : arrival.now.unixSecs < arrival.envelope.expiresUnixSecs
  · cases hl : s.sessions.lookup arrival.envelope.sessionId with
    | some session =>
        obtain ⟨r, outbox, hbuffer⟩ := bufferEnvelope_of_room hl h.standing.room
        have hhandle := handleEnvelope_of_lookup runtime hnow hl
        have hunbound := h.unbound session hl
        rw [verified_of_unbound hunbound, if_neg Bool.false_ne_true, hbuffer] at hhandle
        refine ⟨_, next_event h.standing hhandle, Silent.removeCancelled ⟨?_, ?_⟩, rfl⟩
        · exact ⟨h.standing.available, h.standing.generation, h.standing.room⟩
        · intro after hafter
          rw [← Option.some.inj (lookup_put_self.symm.trans hafter)]
          exact hunbound
    | none =>
        have hopen : handleEnvelope runtime arrival.now arrival.envelope s =
            answerRequest runtime arrival.envelope arrival.envelope.payload.asRequest s :=
          read_bind_eq (a := ()) (if_pos hnow) (read_bind_eq (a := none) (by rw [hl]) rfl)
        cases hrequest : arrival.envelope.payload.asRequest with
        | none =>
            rw [hrequest] at hopen
            exact ⟨_, next_event h.standing hopen, h.removeCancelled, rfl⟩
        | some request =>
            rw [hrequest] at hopen
            obtain ⟨r, t, ht, hsilent, happlied⟩ := openResponder_silent runtime
              arrival.envelope request h.standing
            exact ⟨_, next_event h.standing (hopen.trans ht), hsilent.removeCancelled, happlied⟩
  · exact ⟨_, next_event h.standing (handleEnvelope_of_expired runtime hnow), h.removeCancelled, rfl⟩

end Silent

section Live

variable {generation : UInt64} {arrival : Arrival} {new : List RendezvousEnvelope}

/-- A session that waits for no binding, in an actor that stands. -/
structure Live (id : SessionId) (generation : UInt64) (session : Session) (s : Actor) : Prop where
  standing : Standing generation s
  found : s.sessions.lookup id = some session
  bound : session.peerKey ≠ none
  kept : session.cancelled = false

/-- The envelope would be applied on its arrival. -/
def Takes (runtime : Runtime) (session : Session) (envelope : RendezvousEnvelope) : Prop :=
  verified runtime session envelope = true ∧ Accepts envelope session

instance (session : Session) (envelope : RendezvousEnvelope) : Decidable (Takes runtime session envelope) :=
  inferInstanceAs (Decidable (_ ∧ _))

theorem Live.cancelled (h : Live id generation session s) :
    ∀ session, s.sessions.lookup id = some session → session.cancelled = false := by
  intro session' hl
  rw [← Option.some.inj (h.found.symm.trans hl)]
  exact h.kept

theorem Live.removeCancelled (h : Live id generation session s) : Live id generation session (removeCancelled s) where
  standing := h.standing.removeCancelled
  found := by rw [lookup_removeCancelled h.cancelled, h.found]
  bound := h.bound
  kept := h.kept

/-- Alike actors know the same session, but for what waits in it. -/
theorem Live.alike (h : Live id generation session s) (ht : Alike id s t) :
    ∃ session', Live id generation session' t ∧ bare session' = bare session := by
  rcases ht.lookup with ⟨hs, _⟩ | ⟨found, session', hs, hl, hbare⟩
  · exact nomatch hs.symm.trans h.found
  · obtain rfl : found = session := Option.some.inj (hs.symm.trans h.found)
    have hkey : session'.peerKey = found.peerKey := of_bare Session.peerKey (fun _ => rfl) hbare
    have hcancelled : session'.cancelled = found.cancelled := of_bare Session.cancelled (fun _ => rfl) hbare
    exact ⟨session', ⟨ht.standing h.standing, hl, hkey ▸ h.bound, hcancelled.trans h.kept⟩, hbare⟩

theorem Live.keeps (h : Live id generation session s) (hk : Keeps id new s t) (hroom : t.room = none) :
    (∃ session', Live id generation session' t ∧ session'.expiry = session.expiry) ∨
      Silent id generation t ∧ t.sessions.lookup id = none := by
  have hstanding := h.standing.keeps hk hroom
  cases hl : t.sessions.lookup id with
  | none => exact .inr ⟨⟨hstanding, fun session' hl' => nomatch hl.symm.trans hl'⟩, rfl⟩
  | some session' =>
      have hface := hk.session session' hl
      rw [h.found, Option.map_some] at hface
      obtain ⟨hkey, _, hexpiry, hcancelled⟩ : session.peerKey = session'.peerKey ∧ session.peer = session'.peer ∧
          session.expiry = session'.expiry ∧ session.cancelled = session'.cancelled := by
        simpa only [face, Option.some.injEq, Prod.mk.injEq] using hface
      exact .inl ⟨session', ⟨hstanding, hl, hkey ▸ h.bound, hcancelled ▸ h.kept⟩, hexpiry.symm⟩

theorem takes_of_bare (h : bare session' = bare session) (envelope : RendezvousEnvelope) :
    Takes runtime session' envelope = Takes runtime session envelope :=
  of_bare (Takes runtime · envelope) (fun _ => rfl) h

theorem verified_of_bare (h : bare session' = bare session) (envelope : RendezvousEnvelope) :
    verified runtime session' envelope = verified runtime session envelope :=
  of_bare (verified runtime · envelope) (fun _ => rfl) h

/-- The envelopes that the arrival adds to the record. -/
def arrived (runtime : Runtime) (arrival : Arrival) (session : Session) : List RendezvousEnvelope :=
  if arrival.now.unixSecs < arrival.envelope.expiresUnixSecs ∧ Takes runtime session arrival.envelope then
    [arrival.envelope]
  else []

theorem Alike.symm (h : Alike id s t) : Alike id t s where
  eq := by rw [h.eq]
  room := by rw [h.eq]; exact h.room
  session := h.session.symm

theorem Alike.trans {u : Actor} (h : Alike id s t) (h' : Alike id t u) : Alike id s u where
  eq := by rw [h'.eq, h.eq]
  room := h.room
  session := h'.session.trans h.session

theorem alike_hold (hl : s.sessions.lookup id = some session) (hroom : s.room = none) (envelopes : List RendezvousEnvelope)
    (outbox : List PeerMessage) : Alike id s { s.put id (hold envelopes session) with outbox := outbox } where
  eq := rfl
  room := hroom
  session := by
    have hput : (s.put id (hold envelopes session)).sessions.lookup id = some (hold envelopes session) := lookup_put_self
    have hbare : bare (hold envelopes session) = bare session := rfl
    rw [hl, Option.map_some, ← hbare]
    exact congrArg (Option.map bare) hput

variable (runtime) in
/-- Alike actors handle an envelope of the session alike. -/
theorem handleEnvelope_alike (hb : Live id generation session b) (h : Alike id b a) (hid : arrival.envelope.sessionId = id) :
    ∃ r b' r' a', handleEnvelope runtime arrival.now arrival.envelope b = some (r, b') ∧
      handleEnvelope runtime arrival.now arrival.envelope a = some (r', a') ∧
        Keeps id (arrived runtime arrival session) b b' ∧ Alike id b' a' ∧
          (arrived runtime arrival session = [] → Alike id b b') := by
  subst hid
  obtain ⟨session', ha, hbare⟩ := hb.alike h
  by_cases hnow : arrival.now.unixSecs < arrival.envelope.expiresUnixSecs
  · have hleft := handleEnvelope_of_lookup runtime hnow hb.found
    have hright := handleEnvelope_of_lookup runtime hnow ha.found
    rw [verified_of_bare hbare] at hright
    by_cases hv : verified runtime session arrival.envelope = true
    · rw [if_pos hv] at hleft hright
      obtain ⟨r, b', a', hb', ha', halike, hkeeps, hnot⟩ := applyVerified_alike runtime h hb.found
      have harrived : arrived runtime arrival session = recorded arrival.envelope session := by
        simp only [arrived, recorded, Takes, hnow, hv, true_and]
      refine ⟨r, b', r, a', hleft.trans hb', hright.trans ha', harrived ▸ hkeeps, halike, fun hnone => ?_⟩
      rw [(hnot fun haccepts => ?_).2]
      · exact .refl h.room
      · rw [harrived, recorded, if_pos haccepts] at hnone
        exact nomatch hnone
    · rw [if_neg hv] at hleft hright
      obtain ⟨r, left, hb'⟩ := bufferEnvelope_of_room hb.found h.room
      obtain ⟨r', right, ha'⟩ := bufferEnvelope_of_room ha.found ha.standing.room
      have harrived : arrived runtime arrival session = [] := if_neg fun htaken => hv htaken.2.1
      have hb'' := alike_hold hb.found h.room [arrival.envelope] left
      have ha'' := alike_hold ha.found ha.standing.room [arrival.envelope] right
      refine ⟨r, _, r', _, hleft.trans hb', hright.trans ha', ?_, hb''.symm.trans (h.trans ha''), fun _ => hb''⟩
      rw [harrived]
      have hput : Keeps arrival.envelope.sessionId [] b (b.put arrival.envelope.sessionId (hold [arrival.envelope] session)) :=
        keeps_put hb.found rfl
      exact ⟨hput.applied, hput.controlAvailable, hput.generation, hput.session⟩
  · have harrived : arrived runtime arrival session = [] := if_neg fun htaken => hnow htaken.1
    refine ⟨_, b, _, a, handleEnvelope_of_expired runtime hnow, handleEnvelope_of_expired runtime hnow, ?_, h, fun _ => .refl h.room⟩
    rw [harrived]
    exact Keeps.refl b

end Live

end Rustgo.Orchestration
