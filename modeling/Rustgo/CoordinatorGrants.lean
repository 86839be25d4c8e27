import Rustgo.CoordinatorHistory

namespace Rustgo.Coordinator

open Checks Protocol Registry Rendezvous Tables RendezvousCoordinator CoordinatorState Runs

variable {c : RendezvousCoordinator} {timely : Prop} {s s' : Server} {id : SessionId} {log : List HistoryEvent}
  {session session' : StoredSession} {now : Moment} {authenticated : ControlSessionGuard}
  {envelope : RendezvousEnvelope} {party : AuthenticatedClient} {g : CandidateGeneration} {event : HistoryEvent}

/-- The set that an envelope announces for a participant and a generation. -/
def Forwarded.announcement? (e : Forwarded) (party : AuthenticatedClient) (g : CandidateGeneration) : Option CandidateSetV2 :=
  match e.envelope.payload with
  | .candidateSetV2 set => if e.sender = party ∧ e.envelope.generation = g then some set else none
  | _ => none

/-- The candidate sets of a generation that were passed on for a participant. -/
def announcements (log : List HistoryEvent) (party : AuthenticatedClient) (g : CandidateGeneration) : List CandidateSetV2 :=
  (envelopes log).filterMap fun e => e.announcement? party g

def candidatesDigest (c : RendezvousCoordinator) (set : CandidateSetV2) : Vector UInt8 32 :=
  c.sha256 (RendezvousFormat.candidateSetV2.write set)

/-- The stored digests are those of the sets of the present generation. -/
structure Digested (c : RendezvousCoordinator) (log : List HistoryEvent) (session : StoredSession) : Prop where
  initiator : (announcements log session.consumer.identity session.state.generation).map (candidatesDigest c) =
    session.candidateDigests.1.toList
  responder : (announcements log session.provider.identity session.state.generation).map (candidatesDigest c) =
    session.candidateDigests.2.toList
  later : ∀ party g, session.state.generation.value < g.value → announcements log party g = []

section Announcements

theorem announcements_append (e : Forwarded) : announcements (log ++ [.forwarded e]) party g =
    announcements log party g ++ (e.announcement? party g).toList := by
  rw [announcements, envelopes_append, List.filterMap_append, announcements]
  cases h : e.announcement? party g <;> simp [HistoryEvent.envelope?, h]

theorem announcements_append_quiet (h : ∀ e, event = .forwarded e → e.announcement? party g = none) :
    announcements (log ++ [event]) party g = announcements log party g := by
  cases event with
  | forwarded e => rw [announcements_append, h e rfl, Option.toList_none, List.append_nil]
  | relayed | tombstoned => rw [announcements, envelopes_append, HistoryEvent.envelope?, Option.toList_none, List.append_nil, announcements]

theorem announcement_eq_none {e : Forwarded} (h : ∀ set, e.envelope.payload ≠ .candidateSetV2 set) : e.announcement? party g = none := by
  rw [Forwarded.announcement?]
  split
  · next set hset => exact absurd hset (h set)
  · rfl

theorem announcement_eq_some {e : Forwarded} {set : CandidateSetV2} :
    e.announcement? party g = some set ↔ e.envelope.payload = .candidateSetV2 set ∧ e.sender = party ∧ e.envelope.generation = g := by
  rw [Forwarded.announcement?]
  split
  · next set' hset =>
    rw [hset, RendezvousPayload.candidateSetV2.injEq]
    split
    · next h => simp [h]
    · next h => simp [h]
  · next hno => simpa using fun h => absurd h (hno set)

end Announcements

/-- What a session has of the present candidates. -/
structure SameSets (session session' : StoredSession) : Prop where
  consumer : session'.consumer = session.consumer
  provider : session'.provider = session.provider
  generation : session'.state.generation = session.state.generation
  digests : session'.candidateDigests = session.candidateDigests

theorem SameCore.sets (h : SameCore session session') : SameSets session session' :=
  ⟨h.consumer, h.provider, congrArg _ h.state, h.digests⟩

section Digested

variable {plan : ForwardPlan} {set : CandidateSetV2} {participant : UInt8} {update : Option GenerationUpdate} {e : Forwarded}

theorem Digested.same (h : Digested c log session) (hs : SameSets session session') {log' : List HistoryEvent}
    (hlog : ∀ party g, announcements log' party g = announcements log party g) : Digested c log' session' where
  initiator := by rw [hs.consumer, hs.generation, hs.digests, hlog]; exact h.initiator
  responder := by rw [hs.provider, hs.generation, hs.digests, hlog]; exact h.responder
  later := by
    intro party g hg
    rw [hs.generation] at hg
    rw [hlog]
    exact h.later party g hg

/-- Before a set is noted, the digests are those of the generation that it belongs to. -/
theorem Digested.turned (h : Digested c log session) (hset : envelope.payload = .candidateSetV2 set)
    (hcase : GenerationCase session now participant envelope update) :
    let digests := if update.any (·.advanced) then (none, none) else session.candidateDigests
    (announcements log session.consumer.identity envelope.generation).map (candidatesDigest c) = digests.1.toList ∧
      (announcements log session.provider.identity envelope.generation).map (candidatesDigest c) = digests.2.toList ∧
      ∀ party g, envelope.generation.value < g.value → announcements log party g = [] := by
  cases hcase with
  | kept hno _ => exact absurd hset (hno set)
  | announced _ _ _ hg _ =>
      rw [hg]
      exact ⟨h.initiator, h.responder, h.later⟩
  | advanced _ _ _ hg _ _ _ =>
      have hlater : session.state.generation.value < envelope.generation.value := UInt64.lt_iff_toNat_lt.mpr (by omega)
      refine ⟨?_, ?_, fun party g hlt => h.later party g (UInt64.lt_trans hlater hlt)⟩
      · rw [h.later _ _ hlater]
        rfl
      · rw [h.later _ _ hlater]
        rfl

/-- A participant has one set for each generation. -/
theorem Digested.fresh (h : Digested c log session) (hk : Coherent id session) {target : SessionOwner}
    (hb : Between session party target) (hset : envelope.payload = .candidateSetV2 set)
    (hcase : GenerationCase session now (participantBit session party) envelope update) :
    announcements log party envelope.generation = [] := by
  cases hcase with
  | kept hno _ => exact absurd hset (hno set)
  | announced _ _ _ hg hbit =>
      rw [hg]
      rcases hb with ⟨hm, _⟩ | ⟨hm, hp, _⟩
      · rw [participantBit, if_pos hm] at hbit
        have hnone : session.candidateDigests.1 = none := by
          by_contra hsome
          exact hk.initiator.mpr hsome hbit
        have hmap := h.initiator
        rw [hnone, SessionOwner.matches_iff.mp hm] at hmap
        exact List.map_eq_nil_iff.mp hmap
      · rw [participantBit, if_neg hm] at hbit
        have hnone : session.candidateDigests.2 = none := by
          by_contra hsome
          exact hk.responder.mpr hsome hbit
        have hmap := h.responder
        rw [hnone, SessionOwner.matches_iff.mp hp] at hmap
        exact List.map_eq_nil_iff.mp hmap
  | advanced _ _ _ hg _ _ _ => exact h.later _ _ (UInt64.lt_iff_toNat_lt.mpr (by omega))

theorem Digested.forwarded (h : Digested c log plan.session) (hk : Coherent id plan.session)
    (hf : Forwarding s now authenticated e.envelope plan) (hsender : e.sender = authenticated.identity)
    (hset : e.envelope.payload = .candidateSetV2 set) :
    Digested c (log ++ [.forwarded e]) (forwardedSession c now authenticated e.envelope plan) := by
  obtain ⟨_, hconsumer, hprovider, hstate, _, _, hdigests⟩ := forwardedSession_fields c now authenticated e.envelope plan
  obtain ⟨hinitiator, hresponder, hlater⟩ := h.turned hset hf.generation
  have hfresh := h.fresh hk hf.between hset (hf.participant ▸ hf.generation)
  have hname := hk.sender hf.between
  have hgen : plan.next.generation = e.envelope.generation := by rw [hf.next]
  rw [announcedSession_digests, candidateDigest_eq set hset] at hdigests
  have hdistinct : plan.session.consumer.identity ≠ plan.session.provider.identity := fun heq => hk.distinct (congrArg (·.name) heq)
  have hadds (party) : e.announcement? party e.envelope.generation = if authenticated.identity = party then some set else none := by
    split
    · next heq => exact announcement_eq_some.mpr ⟨hset, hsender.trans heq, rfl⟩
    · next hne =>
      apply Option.eq_none_iff_forall_ne_some.mpr
      intro set' hsome
      exact hne (hsender.symm.trans (announcement_eq_some.mp hsome).2.1)
  have hnext : ∀ party g, (forwardedSession c now authenticated e.envelope plan).state.generation.value < g.value →
      announcements (log ++ [.forwarded e]) party g = [] := by
    intro party g hg
    rw [hstate, hgen] at hg
    rw [announcements_append, hlater party g hg]
    apply Option.toList_eq_nil_iff.mpr
    apply Option.eq_none_iff_forall_ne_some.mpr
    intro set' hsome
    rw [(announcement_eq_some.mp hsome).2.2] at hg
    exact UInt64.lt_irrefl _ hg
  dsimp only at hdigests
  rcases hf.between with ⟨hm, _⟩ | ⟨hm, hp, _⟩
  · rw [if_pos hm.1.symm] at hdigests
    rw [← SessionOwner.matches_iff.mp hm] at hfresh hadds
    refine ⟨?_, ?_, hnext⟩
    · rw [hconsumer, hstate, hgen, announcements_append, hadds, if_pos rfl, hfresh, hdigests]
      rfl
    · rw [hprovider, hstate, hgen, announcements_append, hadds, if_neg hdistinct, hdigests, Option.toList_none, List.append_nil]
      exact hresponder
  · rw [if_neg fun hsame => hk.distinct (hsame.symm.trans hp.1.symm)] at hdigests
    rw [← SessionOwner.matches_iff.mp hp] at hfresh hadds
    refine ⟨?_, ?_, hnext⟩
    · rw [hconsumer, hstate, hgen, announcements_append, hadds, if_neg hdistinct.symm, hdigests, Option.toList_none, List.append_nil]
      exact hinitiator
    · rw [hprovider, hstate, hgen, announcements_append, hadds, if_pos rfl, hfresh, hdigests]
      rfl

end Digested

/-- The log of the session that bears the id now. -/
def Server.presentLog (s : Server) (id : SessionId) : List HistoryEvent := s.sessionLog id (s.incarnation id)

/-- An event that announces no candidates. -/
def HistoryEvent.Quiet (event : HistoryEvent) : Prop := ∀ e, event = .forwarded e → ∀ set, e.envelope.payload ≠ .candidateSetV2 set

theorem HistoryEvent.Quiet.announcements (h : event.Quiet) (log : List HistoryEvent) (party : AuthenticatedClient) (g : CandidateGeneration) :
    announcements (log ++ [event]) party g = Coordinator.announcements log party g :=
  announcements_append_quiet fun e he => announcement_eq_none (h e he)

section Logs

theorem presentLog_append_self (hk : event.incarnation = s.incarnation event.sessionId) (hnew : ¬event.Opens event.sessionId) :
    (s.append event).presentLog event.sessionId = s.presentLog event.sessionId ++ [event] := by
  rw [Server.presentLog, incarnation_append, if_neg hnew, Nat.add_zero, Server.presentLog, ← hk, sessionLog_append_self]

theorem presentLog_append_other (h : id ≠ event.sessionId) : (s.append event).presentLog id = s.presentLog id := by
  rw [Server.presentLog, incarnation_append_other h, sessionLog_append_other h, Server.presentLog]

/-- The log of a session that opens. -/
theorem presentLog_append_opens (hl : Logged timely s) (hk : event.incarnation = s.incarnation event.sessionId + 1)
    (hopens : event.Opens event.sessionId) : (s.append event).presentLog event.sessionId = [event] := by
  rw [Server.presentLog, incarnation_append, if_pos hopens, ← hk, sessionLog_append_self, hk, hl.fresh, List.nil_append]

end Logs

/-- How the change of a server reaches an active session: it stays as it was as far
as candidates go, or it is new, or it notes a candidate set. -/
inductive Follows (c : RendezvousCoordinator) (s s' : Server) (id : SessionId) (session' : StoredSession) : Prop
  | kept {session : StoredSession} (hold : s.state.activeSession id = some session) (hsame : SameSets session session')
      (hlog : ∀ party g, announcements (s'.presentLog id) party g = announcements (s.presentLog id) party g)
  | opened (hlog : ∀ party g, announcements (s'.presentLog id) party g = []) (hnone : session'.candidateDigests = (none, none))
  | announced {now : Moment} {authenticated : ControlSessionGuard} {plan : ForwardPlan} {set : CandidateSetV2} {e : Forwarded} (hf : Forwarding s now authenticated e.envelope plan)
      (hset : e.envelope.payload = .candidateSetV2 set) (hsender : e.sender = authenticated.identity) (hid : e.envelope.sessionId = id)
      (hsession : session' = forwardedSession c now authenticated e.envelope plan)
      (hlog : s'.presentLog id = s.presentLog id ++ [.forwarded e])

theorem Digested.follows {s s' : Server} (h : ∀ {id session}, s.state.activeSession id = some session → Digested c (s.presentLog id) session)
    (hk : Kept s) {session' : StoredSession} (hs : Follows c s s' id session') : Digested c (s'.presentLog id) session' := by
  cases hs with
  | kept hold hsame hlog => exact (h hold).same hsame hlog
  | opened hlog hnone =>
      refine ⟨?_, ?_, fun party g _ => hlog party g⟩
      · rw [hlog, hnone]
        rfl
      · rw [hlog, hnone]
        rfl
  | announced hf hset hsender hid hsession hlog =>
      subst hid
      rw [hsession, hlog]
      exact (h hf.session).forwarded (hk.coherent hf.session) hf hsender hset

section Changes

theorem follows_refl (hold : s.state.activeSession id = some session) (hsame : SameSets session session')
    (hlog : s'.presentLog id = s.presentLog id) : Follows c s s' id session' :=
  .kept hold hsame fun party g => by rw [hlog]

/-- A session that is not the one of the event. -/
theorem follows_other {state : CoordinatorState} (hold : s.state.activeSession id = some session) (hne : id ≠ event.sessionId) :
    Follows c s ({ s with state }.append event) id session :=
  follows_refl hold ⟨rfl, rfl, rfl, rfl⟩ (presentLog_append_other (s := s) hne)

theorem follows_quiet {state : CoordinatorState} (hold : s.state.activeSession event.sessionId = some session)
    (hsame : SameSets session session') (hk : event.incarnation = s.incarnation event.sessionId)
    (hnew : ¬event.Opens event.sessionId) (hquiet : event.Quiet) :
    Follows c s ({ s with state }.append event) event.sessionId session' := by
  refine .kept hold hsame fun party g => ?_
  have hlog : ({ s with state }.append event).presentLog event.sessionId = s.presentLog event.sessionId ++ [event] :=
    presentLog_append_self hk hnew
  rw [hlog, hquiet.announcements]

theorem quiet_of_payload {e : Forwarded} (h : ∀ set, e.envelope.payload ≠ .candidateSetV2 set) : (HistoryEvent.forwarded e).Quiet := by
  rintro _ ⟨⟩
  exact h

theorem Forwarding.sameSets {plan : ForwardPlan} (hf : Forwarding s now authenticated envelope plan)
    (h : ∀ set, envelope.payload ≠ .candidateSetV2 set) :
    SameSets plan.session (forwardedSession c now authenticated envelope plan) := by
  obtain ⟨_, hconsumer, hprovider, hstate, _, _, hdigests⟩ := forwardedSession_fields c now authenticated envelope plan
  have hcase := hf.generation
  rw [announcedSession_digests, candidateDigest_eq_none h] at hdigests
  generalize plan.generationUpdate = update at hcase hdigests
  cases hcase with
  | kept _ hg =>
      refine ⟨hconsumer, hprovider, ?_, hdigests⟩
      rw [hstate, hf.next]
      exact hg
  | announced set hset | advanced set hset => exact absurd hset (h set)

theorem Change.follows (hr : Recorded timely s) (h : Change c timely s s') (hactive : s'.state.activeSession id = some session') :
    Follows c s s' id session' := by
  cases h with
  | registry r _ => exact follows_refl hactive ⟨rfl, rfl, rfl, rfl⟩ rfl
  | @opened now authenticated envelope plan hplan =>
      have hrequested := requestPlan_eq_ok hplan
      rcases active_open hactive with ⟨hid, rfl⟩ | ⟨hne, hold⟩
      · obtain rfl : id = envelope.sessionId := hid
        refine .opened (fun party g => ?_) rfl
        have hlog : (s.append (s.opens envelope authenticated plan.permit now)).presentLog envelope.sessionId =
            [s.opens envelope authenticated plan.permit now] :=
          presentLog_append_opens hr.logged rfl ⟨⟨_, hrequested.payload⟩, rfl⟩
        have hquiet : (s.opens envelope authenticated plan.permit now).Quiet :=
          quiet_of_payload fun set hset => by cases hrequested.payload.symm.trans hset
        exact (congrArg (announcements · party g) hlog).trans (hquiet.announcements [] party g)
      · exact follows_other hold hne
  | @decided now authenticated envelope plan permit hplan hp =>
      have hd := decisionPlan_eq_ok hplan
      rcases active_put hactive with ⟨rfl, rfl⟩ | ⟨hne, hold⟩
      · have hsame : SameSets plan.session (decidedSession plan) := by
          have hgeneration : plan.next.generation = plan.session.state.generation := by rw [hd.next]
          rw [decidedSession_eq]
          exact ⟨rfl, rfl, hgeneration, rfl⟩
        refine follows_quiet hd.session hsame rfl (not_opens_of_payload ?_) (quiet_of_payload fun set hset => ?_)
        · rintro ⟨value, hvalue⟩
          cases hd.payload.symm.trans hvalue
        · cases hd.payload.symm.trans hset
      · exact follows_other hold hne
  | @forwarded now authenticated envelope plan permit hplan hp =>
      have hf := forwardPlan_eq_ok hplan
      rcases active_put hactive with ⟨rfl, rfl⟩ | ⟨hne, hold⟩
      · have hnew : ¬(s.passes envelope authenticated permit now).Opens envelope.sessionId := by
          apply not_opens_of_payload
          rintro ⟨value, hvalue⟩
          have hpayload := hf.payload
          rw [show envelope.payload = _ from hvalue] at hpayload
          exact hpayload
        by_cases hset : ∃ set, envelope.payload = .candidateSetV2 set
        · obtain ⟨set, hset⟩ := hset
          exact .announced (e := ⟨s.incarnation envelope.sessionId, envelope, authenticated.identity, permit.identity, now⟩) hf hset rfl rfl
            rfl (presentLog_append_self rfl hnew)
        · exact follows_quiet hf.session (hf.sameSets fun set h => hset ⟨set, h⟩) rfl hnew (quiet_of_payload fun set h => hset ⟨set, h⟩)
      · exact follows_other hold hne
  | @closed now authenticated envelope plan permit hplan hp =>
      obtain ⟨hne, hput⟩ := active_tombstone hactive
      rcases active_put hput with ⟨heq, _⟩ | ⟨_, hold⟩
      · exact absurd heq hne
      · exact follows_refl hold ⟨rfl, rfl, rfl, rfl⟩
          ((presentLog_append_other hne).trans (presentLog_append_other (s := s) hne))
  | entombed hsession =>
      obtain ⟨hne, hold⟩ := active_tombstone hactive
      exact follows_other hold hne
  | admitted now frame hsession =>
      rcases active_put hactive with ⟨rfl, rfl⟩ | ⟨hne, hold⟩
      · exact follows_refl hsession ⟨rfl, rfl, rfl, rfl⟩ rfl
      · exact follows_refl hold ⟨rfl, rfl, rfl, rfl⟩ rfl
  | relayed hsession ht ha hp hl =>
      rcases active_put hactive with ⟨rfl, rfl⟩ | ⟨hne, hold⟩
      · obtain ⟨hconsumer, hprovider, hgeneration, hdigests⟩ := relayedSession_core.sets
        exact follows_quiet hsession ⟨hconsumer, hprovider, hgeneration, hdigests⟩ rfl id (by rintro _ ⟨⟩)
      · exact follows_other hold hne
  | flushed now hsession =>
      rcases active_put hactive with ⟨rfl, rfl⟩ | ⟨hne, hold⟩
      · exact follows_refl hsession flushSession_core.sets rfl
      · exact follows_refl hold ⟨rfl, rfl, rfl, rfl⟩ rfl
  | discarded => exact follows_refl hactive ⟨rfl, rfl, rfl, rfl⟩ rfl
  | purged => exact follows_refl (active_erase hactive).2 ⟨rfl, rfl, rfl, rfl⟩ rfl

end Changes

end Rustgo.Coordinator
