import Rustgo.OrchestrationSteps

namespace Rustgo.Orchestration

open Call Checks Coordinator Path Protocol Rendezvous Tables Relation

variable {runtime : Runtime} {why : SessionId → Session → IoError → Prop} {follows : Session → Prop}
  {marks : SessionId → Mark → Prop} {s t : Actor} {id : SessionId} {session : Session} {now : Moment}
  {r : Except IoError Unit} {kind : PathKind} {handle : PathHandle}

/-- The changes of the handlers that write nothing about paths. -/
abbrev Unmarked : SessionId → Mark → Prop := fun _ _ => False

def Actor.record (s : Actor) (now : Moment) (exportName : String) (kind : PathKindStatus) : Actor :=
  { s with pathStatus := s.pathStatus.record exportName ⟨kind, now.unixMillis⟩ }

section Start

/-- A session for which the path manager was started. -/
def managed (p2p : P2pConfig) (session : Session) : Session :=
  if p2p.preferDirect then takeDirectAttempt (setManager (setRelayReady session)) else setManager (setRelayReady session)

/-- The manager is started once, and the race with it. -/
theorem startPathManager_cases (h : startPathManager runtime now id s = some (r, t)) :
    t = s ∨ ∃ session p2p, s.sessions.lookup id = some session ∧ session.manager = false ∧ runtime.p2p = some p2p ∧
      (t = (s.put id (setRelayReady session)).record now session.exportName .relay ∨
        ∃ direct, t =
          { (s.put id (managed p2p session)).record now session.exportName .relay with
            effects := s.effects ++ [.connecting id direct] }) := by
  rcases read_bind_cases h with ⟨_, _, hr⟩ | ⟨p2p, hp, hr⟩
  · obtain ⟨_, rfl⟩ := Prod.mk.inj hr
    exact .inl rfl
  rcases read_bind_cases hr with ⟨_, _, hr⟩ | ⟨session, hs, hr⟩
  · obtain ⟨_, rfl⟩ := Prod.mk.inj hr
    exact .inl rfl
  have hl := okOr_eq_ok.mp hs
  rcases read_bind_cases hr with ⟨_, _, hr⟩ | ⟨_, hm, hr⟩
  · obtain ⟨_, rfl⟩ := Prod.mk.inj hr
    exact .inl rfl
  refine .inr ⟨session, p2p, hl, require_eq_ok.mp hm, okOr_eq_ok.mp hp, ?_⟩
  have hr := (bind_of_ok (editSession_of_lookup hl) _).symm.trans hr
  rw [recordPath, update_bind] at hr
  rcases read_bind_cases hr with ⟨_, _, hr⟩ | ⟨_, _, hr⟩
  · obtain ⟨_, rfl⟩ := Prod.mk.inj hr
    exact .inl rfl
  have hready : ((s.put id (setRelayReady session)).record now session.exportName .relay).sessions.lookup id =
      some (setRelayReady session) := lookup_put_self
  have hr := (bind_of_ok (editSession_of_lookup hready) _).symm.trans hr
  rw [managed]
  split at hr
  · next hprefer =>
    have hmanager : (((s.put id (setRelayReady session)).record now session.exportName .relay).put id
        (setManager (setRelayReady session))).sessions.lookup id = some (setManager (setRelayReady session)) :=
      lookup_put_self
    have hr := (bind_of_ok (editSession_of_lookup hmanager) _).symm.trans hr
    obtain ⟨_, rfl⟩ := Prod.mk.inj (Option.some.inj hr)
    rw [if_pos hprefer, put_put]
    exact .inr ⟨session.directAttempt.map Stamped.value, by simp only [Actor.record, Actor.put, Finmap.insert_insert]⟩
  · next hprefer =>
    obtain ⟨_, rfl⟩ := Prod.mk.inj (Option.some.inj hr)
    rw [if_neg hprefer]
    exact .inr ⟨none, by simp only [Actor.record, Actor.put, Finmap.insert_insert]⟩

end Start

section Select

theorem selectRelay_cases (hl : s.sessions.lookup id = some session) (h : selectRelay id session s = some (r, t)) :
    ∃ effects, t = { s.put id (setSelectedKind .relay (takeReply session)) with effects } := by
  have hr := (bind_of_ok (editSession_of_lookup hl) _).symm.trans h
  rcases read_bind_cases hr with ⟨_, _, hr⟩ | ⟨_, _, hr⟩
  · obtain ⟨_, rfl⟩ := Prod.mk.inj hr
    exact ⟨_, rfl⟩
  · obtain ⟨_, rfl⟩ := Prod.mk.inj (Option.some.inj hr)
    exact ⟨_, rfl⟩

theorem selectDirect_cases (hl : s.sessions.lookup id = some session)
    (h : selectDirect id kind handle session s = some (r, t)) :
    ∃ effects, t = { s.put id (setSelectedKind kind (takeReply session)) with effects } := by
  have hr := (bind_of_ok (editSession_of_lookup hl) _).symm.trans h
  obtain ⟨effects, hr⟩ : ∃ effects, (editSession id (setSelectedKind kind) >>= fun _ =>
      carry id kind session.reply handle)
        { s.put id (takeReply session) with effects } = some (r, t) := by
    split at hr
    · exact ⟨_, hr⟩
    · exact ⟨_, hr⟩
  have htaken : ({ s.put id (takeReply session) with effects } : Actor).sessions.lookup id = some (takeReply session) :=
    lookup_put_self
  have hr := (bind_of_ok (editSession_of_lookup htaken) _).symm.trans hr
  have hput : ({ s.put id (takeReply session) with effects } : Actor).put id (setSelectedKind kind (takeReply session)) =
      { s.put id (setSelectedKind kind (takeReply session)) with effects } := by
    simp only [Actor.put, Finmap.insert_insert]
  rw [hput] at hr
  cases handle with
  | other =>
      obtain ⟨_, rfl⟩ := Prod.mk.inj (Option.some.inj hr)
      exact ⟨_, rfl⟩
  | tcp | quic =>
      obtain ⟨_, rfl⟩ := Prod.mk.inj (Option.some.inj hr)
      exact ⟨_, rfl⟩

/-- A path is recorded when, and only when, it is selected. -/
theorem pathSelected_cases (why follows) (h : pathSelected runtime now id kind handle s = some (r, t)) :
    Changes runtime why follows Unmarked s t ∨
      ∃ u session effects, Changes runtime why follows Unmarked s u ∧ u.sessions.lookup id = some session ∧
        t = { (u.put id (setSelectedKind kind (takeReply session))).record now session.exportName kind.status with
          effects } := by
  rcases read_bind_cases h with ⟨_, h, _⟩ | ⟨found, _, hr⟩
  · exact nomatch h
  split at hr
  · obtain ⟨_, rfl⟩ := Prod.mk.inj (Option.some.inj hr)
    exact .inl .refl
  rcases bind_cases hr with ⟨_, u, hu, hr⟩ | ⟨_, u, hu, hr⟩
  · obtain ⟨_, rfl⟩ := Prod.mk.inj hr
    exact .inl (makes_reportSelection _ _ _ trivial hu).1
  have hreport : Changes runtime why follows Unmarked s u := (makes_reportSelection _ _ _ trivial hu).1
  rcases read_bind_cases hr with ⟨_, _, hr⟩ | ⟨session, hs, hr⟩
  · obtain ⟨_, rfl⟩ := Prod.mk.inj hr
    exact .inl hreport
  have hl := okOr_eq_ok.mp hs
  rcases read_bind_cases hr with ⟨_, _, hr⟩ | ⟨_, _, hr⟩
  · obtain ⟨_, rfl⟩ := Prod.mk.inj hr
    exact .inl hreport
  rw [recordPath, update_bind] at hr
  have hrecorded : (u.record now session.exportName kind.status).sessions.lookup id = some session := hl
  refine .inr ⟨u, session, ?_⟩
  split at hr
  · next hkind =>
    obtain ⟨effects, rfl⟩ := selectRelay_cases hrecorded hr
    exact ⟨effects, hreport, hl, hkind ▸ rfl⟩
  · obtain ⟨effects, rfl⟩ := selectDirect_cases hrecorded hr
    exact ⟨effects, hreport, hl, rfl⟩

theorem handleDirectResult_error_cases (why follows) {error : PathError}
    (h : handleDirectResult runtime now id (.error error) s = some (r, t)) :
    Changes runtime why follows Unmarked s t ∨
      ∃ session, s.sessions.lookup id = some session ∧
        Changes runtime why follows Unmarked (s.record now session.exportName .relay) t := by
  rcases read_bind_cases h with ⟨_, h, _⟩ | ⟨found, hf, hr⟩
  · exact nomatch h
  obtain rfl := Except.ok.inj hf
  cases hl : s.sessions.lookup id with
  | none =>
      rw [hl] at hr
      exact .inl (makes_ensureRelayRequest _ _ _ trivial hr).1
  | some session =>
      rw [hl] at hr
      exact .inr ⟨session, rfl, (makes_ensureRelayRequest _ _ _ trivial hr).1⟩

theorem promote_cases (h : promote now id kind s = some (r, t)) :
    t = s ∨ ∃ session, s.sessions.lookup id = some session ∧ t = s.record now session.exportName kind.status := by
  rcases read_bind_cases h with ⟨_, h, _⟩ | ⟨found, hf, hr⟩
  · exact nomatch h
  obtain rfl := Except.ok.inj hf
  cases hl : s.sessions.lookup id with
  | none =>
      rw [hl] at hr
      obtain ⟨_, rfl⟩ := Prod.mk.inj (Option.some.inj hr)
      exact .inl rfl
  | some session =>
      rw [hl] at hr
      dsimp only at hr
      split at hr
      · obtain ⟨_, rfl⟩ := Prod.mk.inj (Option.some.inj hr)
        exact .inr ⟨session, rfl, rfl⟩
      · obtain ⟨_, rfl⟩ := Prod.mk.inj (Option.some.inj hr)
        exact .inl rfl

theorem finishSession_cases (h : finishSession runtime id s = some (r, t)) :
    (s.sessions.lookup id = none ∧ t = s) ∨
      ∃ session, s.sessions.lookup id = some session ∧ t.sessions = s.sessions.erase id ∧
        t.pathStatus = s.pathStatus.remove session.exportName ∧
        (t.trace.sent = s.trace.sent ∨ ∃ envelope, t.trace.sent = s.trace.sent ++ [envelope] ∧
          signedEnvelope runtime (s.drop id) id session.peer session.nextStep session.expiry (.close ⟨none⟩) =
            .ok envelope) := by
  rcases read_bind_cases h with ⟨_, h, _⟩ | ⟨found, hf, hr⟩
  · exact nomatch h
  obtain rfl := Except.ok.inj hf
  cases hl : s.sessions.lookup id with
  | none =>
      rw [hl] at hr
      obtain ⟨_, rfl⟩ := Prod.mk.inj (Option.some.inj hr)
      exact .inl ⟨rfl, rfl⟩
  | some session =>
      rw [hl] at hr
      refine .inr ⟨session, rfl, ?_⟩
      rcases bind_cases hr with ⟨_, _, ha, _⟩ | ⟨_, u, ha, hr⟩
      · exact nomatch ha
      obtain ⟨_, rfl⟩ := Prod.mk.inj (Option.some.inj ha)
      rcases bind_cases hr with ⟨_, _, ha, _⟩ | ⟨_, u, ha, hr⟩
      · exact nomatch ha
      obtain ⟨_, rfl⟩ := Prod.mk.inj (Option.some.inj ha)
      rcases bind_cases hr with ⟨_, _, ha, _⟩ | ⟨_, u, ha, hr⟩
      · exact nomatch (answer_cases ha).1
      obtain ⟨_, effects, rfl⟩ := answer_cases ha
      rcases read_bind_cases hr with ⟨_, h, _⟩ | ⟨current, _, hr⟩
      · exact nomatch h
      split at hr
      · obtain ⟨⟨result, v⟩, hv, hr⟩ := Option.map_eq_some_iff.mp hr
        obtain ⟨_, rfl⟩ := Prod.mk.inj hr
        rcases read_bind_cases hv with ⟨_, _, hv⟩ | ⟨envelope, he, hv⟩
        · obtain ⟨_, rfl⟩ := Prod.mk.inj hv
          exact ⟨rfl, rfl, .inl rfl⟩
        rcases sendEnvelope_cases hv with ⟨_, _, rfl⟩ | ⟨_, _, rfl⟩
        · exact ⟨rfl, rfl, .inl rfl⟩
        · exact ⟨rfl, rfl, .inr ⟨envelope, rfl, he⟩⟩
      · obtain ⟨_, rfl⟩ := Prod.mk.inj (Option.some.inj hr)
        exact ⟨rfl, rfl, .inl rfl⟩

end Select

end Rustgo.Orchestration
