import Rustgo.OrchestrationChanges

namespace Rustgo.Orchestration

open Call Checks Coordinator Path Protocol Rendezvous Tables Relation

variable {runtime : Runtime} {why : SessionId → Session → IoError → Prop} {follows : Session → Prop}
  {marks : SessionId → Mark → Prop} {P : Actor → Prop} {α β : Type} {s t : Actor} {id : SessionId} {session : Session}
  {f : Session → Session} {r : Except IoError Unit}

/-- The call makes no other changes, and nothing is asked of the states around it. -/
abbrev Makes (runtime : Runtime) (why : SessionId → Session → IoError → Prop) (follows : Session → Prop) (marks : SessionId → Mark → Prop)
    (x : Act α) : Prop :=
  Does (Change runtime why follows marks) (fun _ => True) x fun _ _ => True

section Rules

theorem Makes.does {x : Act α} (h : Makes runtime why follows marks x) : Does (Change runtime why follows marks) P x fun _ _ => True :=
  h.weaken fun _ _ => trivial

theorem Makes.bind {x : Act α} {g : α → Act β} (hx : Makes runtime why follows marks x) (hg : ∀ a, Makes runtime why follows marks (g a)) :
    Makes runtime why follows marks (x >>= g) := Does.bind hx hg

theorem makes_pure (a : α) : Makes runtime why follows marks (pure a) := Does.pure a fun _ _ => trivial

theorem makes_read (g : Actor → Except IoError α) : Makes runtime why follows marks (Call.read g) := Does.read fun _ _ _ _ => trivial

theorem makes_refuse (e : IoError) : Makes runtime why follows marks (refuse e : Act α) := makes_read _

theorem does_getSession {g : Session → Act β} {R : β → Actor → Prop}
    (h : ∀ session, Does (Change runtime why follows marks) (fun s => P s ∧ s.sessions.lookup id = some session) (g session) R) :
    Does (Change runtime why follows marks) P (getSession id >>= g) R := by
  apply Does.bind (Q := fun session s => P s ∧ s.sessions.lookup id = some session) _ h
  exact Does.read fun s session hs hok => ⟨hs, okOr_eq_ok.mp hok⟩

theorem does_find {g : Option Session → Act β} {R : β → Actor → Prop}
    (h : ∀ found, Does (Change runtime why follows marks) (fun s => P s ∧ s.sessions.lookup id = found) (g found) R) :
    Does (Change runtime why follows marks) P ((Call.read fun s => .ok (s.sessions.lookup id)) >>= g) R := by
  apply Does.bind (Q := fun found s => P s ∧ s.sessions.lookup id = found) _ h
  exact Does.read fun s found hs hok => ⟨hs, Except.ok.inj hok⟩

theorem editSession_cases (h : editSession id f s = some (r, t)) :
    (∃ e, r = .error e ∧ t = s) ∨
      ∃ session, s.sessions.lookup id = some session ∧ r = .ok () ∧ t = s.put id (f session) := by
  rcases read_bind_cases h with ⟨e, _, hr⟩ | ⟨session, hs, hr⟩
  · obtain ⟨rfl, rfl⟩ := Prod.mk.inj hr
    exact .inl ⟨e, rfl, rfl⟩
  · obtain ⟨rfl, rfl⟩ := Prod.mk.inj (Option.some.inj hr)
    exact .inr ⟨session, okOr_eq_ok.mp hs, rfl, rfl⟩

theorem editSession_of_lookup (h : s.sessions.lookup id = some session) :
    editSession id f s = some (.ok (), s.put id (f session)) := read_bind_eq (okOr_eq_ok.mpr h) rfl

theorem does_editSession {Q : Actor → Prop}
    (he : ∀ s session, P s → s.sessions.lookup id = some session → Edit (marks id) session (f session))
    (hq : ∀ s session, P s → s.sessions.lookup id = some session → Q (s.put id (f session)))
    (hn : ∀ s session, P s → Noting runtime s id session (f session)) :
    Does (Change runtime why follows marks) P (editSession id f) fun _ => Q := by
  intro s r t hs h
  rcases editSession_cases h with ⟨e, rfl, rfl⟩ | ⟨session, hl, rfl, rfl⟩
  · exact ⟨.refl, fun _ h => nomatch h⟩
  · exact ⟨.single (.edit hl (he s session hs hl) (hn s session hs)), fun _ _ => hq s session hs hl⟩

theorem makes_editSession (he : ∀ session, Edit (marks id) session (f session))
    (hn : ∀ s session, Noting runtime s id session (f session)) :
    Makes runtime why follows marks (editSession id f) :=
  does_editSession (fun _ session _ _ => he session) (fun _ _ _ _ => trivial) fun s session _ => hn s session

theorem does_emit (hP : ∀ s effects, P s → P { s with effects }) {effect : Effect}
    (he : ∀ id ∈ effect.race, marks id .manager) (ha : ∀ s, P s → ∀ id ∈ effect.relay, s.Agreed id) :
    Does (Change runtime why follows marks) P (emit effect) fun _ => P :=
  Does.update (fun s hs => .emit effect he (ha s hs)) fun s hs => hP s _ hs

theorem does_answer (hP : ∀ s effects, P s → P { s with effects }) (reply : Option Nat)
    (result : Except IoError Opened) : Does (Change runtime why follows marks) P (answer reply result) fun _ => P := by
  cases reply with
  | none => exact Does.pure () fun _ hs => hs
  | some reply => exact does_emit hP (fun _ hid => nomatch hid) fun _ _ _ hid => nomatch hid

theorem makes_emit (effect : Effect) (he : effect.race = none) (ha : effect.relay = none) :
    Makes runtime why follows marks (emit effect) :=
  does_emit (fun _ _ _ => trivial) (fun _ hid => nomatch he.symm.trans hid) fun _ _ _ hid => nomatch ha.symm.trans hid

theorem makes_connecting (hmanager : marks id .manager) (direct : Option DirectAttempt) :
    Makes runtime why follows marks (emit (.connecting id direct)) :=
  does_emit (fun _ _ _ => trivial) (fun _ hid => Option.some.inj hid ▸ hmanager) fun _ _ _ hid => nomatch hid

theorem makes_answer (reply : Option Nat) (result : Except IoError Opened) :
    Makes runtime why follows marks (answer reply result) := does_answer (fun _ _ _ => trivial) reply result

end Rules

section Send

variable {payload : RendezvousPayload} {envelope : RendezvousEnvelope}

theorem sendPeerControl_cases {message : PeerMessage} (h : sendPeerControl message s = some (r, t)) :
    (s.room = some 0 ∧ r = .error .closed ∧ t = s) ∨
      (s.room ≠ some 0 ∧ r = .ok () ∧ t = { s with outbox := s.outbox ++ [message], room := s.room.map (· - 1) }) := by
  rcases read_bind_cases h with ⟨e, he, hr⟩ | ⟨_, hs, hr⟩
  · obtain ⟨rfl, rfl⟩ := Prod.mk.inj hr
    rw [require] at he
    split at he
    · cases he
    · next hroom => exact .inl ⟨not_not.mp hroom, Except.error.inj he ▸ rfl, rfl⟩
  · obtain ⟨rfl, rfl⟩ := Prod.mk.inj (Option.some.inj hr)
    exact .inr ⟨require_eq_ok.mp hs, rfl, rfl⟩

/-- The two ways a request for an observation goes. -/
theorem requestObservation_cases (h : requestObservation runtime id s = some (r, t)) :
    t = s ∨
      (s.room = some 0 ∧ t = { s with observationWaiters := s.observationWaiters ++ [id] }) ∨
      (runtime.observationEndpoints ≠ none ∧ s.room ≠ some 0 ∧ t =
        { s with
          observationWaiters := s.observationWaiters ++ [id]
          outbox := s.outbox ++ [.observationGrantRequest]
          room := s.room.map (· - 1)
          trace := { s.trace with requested := s.trace.requested ++ [id] } }) := by
  unfold requestObservation at h
  split at h
  · obtain ⟨_, rfl⟩ := Prod.mk.inj (Option.some.inj h)
    exact .inl rfl
  · next hend =>
    rw [pushWaiter, update_bind] at h
    rcases bind_cases h with ⟨_, _, hu, hr⟩ | ⟨_, u, hu, hr⟩
    · obtain ⟨rfl, rfl⟩ := Prod.mk.inj hr
      rcases sendPeerControl_cases hu with ⟨hroom, _, rfl⟩ | ⟨_, h, _⟩
      · exact .inr (.inl ⟨hroom, rfl⟩)
      · exact nomatch h
    · rcases sendPeerControl_cases hu with ⟨_, h, _⟩ | ⟨hroom, _, rfl⟩
      · exact nomatch h
      · obtain ⟨_, rfl⟩ := Prod.mk.inj (Option.some.inj hr)
        exact .inr (.inr ⟨hend, hroom, rfl⟩)

theorem does_requestObservation
    (hP : ∀ s t : Actor, t.sessions = s.sessions → t.trace.sent = s.trace.sent → t.version = s.version → P s → P t) :
    Does (Change runtime why follows marks) P (requestObservation runtime id) fun _ => P := by
  intro s r t hs h
  rcases requestObservation_cases h with rfl | ⟨hroom, rfl⟩ | ⟨hend, hroom, rfl⟩
  · exact ⟨.refl, fun _ _ => hs⟩
  · exact ⟨.single (.requestFailed id hroom), fun _ _ => hP s _ rfl rfl rfl hs⟩
  · exact ⟨.single (.request id hend hroom), fun _ _ => hP s _ rfl rfl rfl hs⟩

theorem makes_requestObservation : Makes runtime why follows marks (requestObservation runtime id) :=
  does_requestObservation fun _ _ _ _ _ _ => trivial

theorem sendEnvelope_cases (h : sendEnvelope envelope s = some (r, t)) :
    (∃ e, r = .error e ∧ t = s) ∨ (s.room ≠ some 0 ∧ r = .ok () ∧ t = s.post envelope) := by
  rcases read_bind_cases h with ⟨e, _, hr⟩ | ⟨_, _, hr⟩
  · obtain ⟨rfl, rfl⟩ := Prod.mk.inj hr
    exact .inl ⟨e, rfl, rfl⟩
  rcases bind_cases hr with ⟨e, _, hu, hr⟩ | ⟨_, u, hu, hr⟩
  · obtain ⟨rfl, rfl⟩ := Prod.mk.inj hr
    rcases sendPeerControl_cases hu with ⟨_, _, rfl⟩ | ⟨_, h, _⟩
    · exact .inl ⟨e, rfl, rfl⟩
    · exact nomatch h
  · rcases sendPeerControl_cases hu with ⟨_, h, _⟩ | ⟨hroom, _, rfl⟩
    · exact nomatch h
    · obtain ⟨rfl, rfl⟩ := Prod.mk.inj (Option.some.inj hr)
      exact .inr ⟨hroom, rfl, rfl⟩

/-- A payload that is refused on the way has used up its step. -/
theorem sendPayload_cases (h : sendPayload runtime id payload s = some (r, t)) :
    (∃ e, r = .error e ∧ t = s) ∨
      ∃ session next, s.sessions.lookup id = some session ∧ checkedAdd session.nextStep 1 = some next ∧
        ((∃ e, r = .error e ∧ t = s.put id (setNextStep next session)) ∨
          ∃ envelope, signedEnvelope runtime s id session.peer session.nextStep session.expiry payload = .ok envelope ∧
            s.room ≠ some 0 ∧ r = .ok () ∧ t = (s.put id (setNextStep next session)).post envelope) := by
  rcases read_bind_cases h with ⟨e, _, hr⟩ | ⟨session, hs, hr⟩
  · obtain ⟨rfl, rfl⟩ := Prod.mk.inj hr
    exact .inl ⟨e, rfl, rfl⟩
  have hl := okOr_eq_ok.mp hs
  rcases read_bind_cases hr with ⟨e, _, hr⟩ | ⟨next, hn, hr⟩
  · obtain ⟨rfl, rfl⟩ := Prod.mk.inj hr
    exact .inl ⟨e, rfl, rfl⟩
  refine .inr ⟨session, next, hl, okOr_eq_ok.mp hn, ?_⟩
  rcases read_bind_cases ((bind_of_ok (editSession_of_lookup hl) _).symm.trans hr) with ⟨e, _, hr⟩ | ⟨envelope, he, hr⟩
  · obtain ⟨rfl, rfl⟩ := Prod.mk.inj hr
    exact .inl ⟨e, rfl, rfl⟩
  have hsign : signedEnvelope runtime s id session.peer session.nextStep session.expiry payload = .ok envelope := by
    rw [← he]
    exact signedEnvelope_congr rfl (by rw [lookup_put_self, hl]; rfl)
  rcases sendEnvelope_cases hr with ⟨e, rfl, rfl⟩ | ⟨hroom, rfl, rfl⟩
  · exact .inl ⟨e, rfl, rfl⟩
  · exact .inr ⟨envelope, hsign, hroom, rfl, rfl⟩

theorem makes_sendPayload (hp : isCandidateSetV2 payload = false)
    (hf : isRelayRequest payload = true → runtime.fallback = true) :
    Makes runtime why follows marks (sendPayload runtime id payload) := by
  intro s r t _ h
  refine ⟨?_, fun _ _ => trivial⟩
  rcases sendPayload_cases h with ⟨_, _, rfl⟩ | ⟨session, next, hl, hn, ⟨_, _, rfl⟩ | ⟨envelope, he, hroom, _, rfl⟩⟩
  · exact .refl
  · exact .single (.edit hl (.nextStep next hn) (.kept rfl rfl rfl))
  · exact .single (.post hl hn hp hf he hroom)

theorem makes_lookupIdentity : Makes runtime why follows marks (lookupIdentity id) := by
  apply does_getSession
  intro session
  apply Does.bind (Q := fun _ _ => True) (Does.read fun _ _ _ _ => trivial)
  intro peer s r t _ h
  rcases sendPeerControl_cases h with ⟨_, _, rfl⟩ | ⟨hroom, _, rfl⟩
  · exact ⟨.refl, fun _ _ => trivial⟩
  · exact ⟨.single (.lookup _ hroom), fun _ _ => trivial⟩

theorem makes_failSession {error : IoError}
    (hw : ∀ session, error = .closed ∨ error = .exportRejected ∨ why id session error) :
    Makes runtime why follows marks (failSession id error) := by
  apply does_find
  intro found
  cases found with
  | none => exact (makes_pure ()).does
  | some session =>
      apply Does.bind (Q := fun _ _ => True) _ fun _ => makes_answer _ _
      exact Does.update (fun _ h => .fail h.2 (hw session)) fun _ _ => trivial

theorem put_post : ((s.put id session).post envelope).put id (f session) = (s.put id (f session)).post envelope := by
  simp only [Actor.post, Actor.put, Finmap.insert_insert]

theorem makes_sendCandidates : Makes runtime why follows marks (sendCandidates runtime id) := by
  intro s r t _ h
  refine ⟨?_, fun _ _ => trivial⟩
  rcases read_bind_cases h with ⟨_, _, hr⟩ | ⟨session, hs, hr⟩
  · obtain ⟨_, rfl⟩ := Prod.mk.inj hr
    exact .refl
  have hl := okOr_eq_ok.mp hs
  split at hr
  · obtain ⟨_, rfl⟩ := Prod.mk.inj (Option.some.inj hr)
    exact .refl
  next hdue =>
  rcases read_bind_cases hr with ⟨_, _, hr⟩ | ⟨set, hset, hr⟩
  · obtain ⟨_, rfl⟩ := Prod.mk.inj hr
    exact .refl
  rcases bind_cases hr with ⟨_, u, hu, hr⟩ | ⟨_, u, hu, hr⟩
  · obtain ⟨_, rfl⟩ := Prod.mk.inj hr
    rcases sendPayload_cases hu with ⟨_, _, rfl⟩ | ⟨session', next, hl', hn, ⟨_, _, rfl⟩ | ⟨_, _, _, h, _⟩⟩
    · exact .refl
    · exact .single (.edit hl' (.nextStep next hn) (.kept rfl rfl rfl))
    · exact nomatch h
  · rcases sendPayload_cases hu with ⟨_, h, _⟩ | ⟨session', next, hl', hn, ⟨_, h, _⟩ | ⟨envelope, he, hroom, _, rfl⟩⟩
    · exact nomatch h
    · exact nomatch h
    · obtain rfl : session' = session := Option.some.inj (hl'.symm.trans hl)
      have hsent : ((s.put id (setNextStep next session')).post envelope).sessions.lookup id =
          some (setNextStep next session') := lookup_put_self
      obtain ⟨_, rfl⟩ := Prod.mk.inj (Option.some.inj ((editSession_of_lookup hsent).symm.trans hr))
      rw [put_post]
      exact .single (.candidates _ hl hn (Bool.eq_true_of_not_eq_false hdue) hset he hroom)

end Send

end Rustgo.Orchestration
