import Rustgo.CoordinatorTracking

namespace Rustgo.Coordinator

open Checks Protocol Registry Rendezvous Tables RendezvousCoordinator CoordinatorState Runs

variable {c : RendezvousCoordinator} {timely : Prop} {s s' : Server} {id : SessionId} {log : List HistoryEvent}
  {q : Forwarded} {session session' : StoredSession} {now : Moment} {authenticated : ControlSessionGuard}
  {envelope : RendezvousEnvelope} {frame : PeerRelayFrame} {permit : Permit}

/-- The log of every session keeps the rules, and no event belongs to a session yet to come. -/
structure Logged (timely : Prop) (s : Server) : Prop where
  past : ∀ event ∈ s.history, event.incarnation ≤ s.incarnation event.sessionId
  guarded : ∀ id k, Guarded (Allowed timely) (s.sessionLog id k)

structure Recorded (timely : Prop) (s : Server) : Prop where
  kept : Kept s
  logged : Logged timely s
  tracks : ∀ {id session}, s.state.activeSession id = some session →
    ∃ q, Tracks (s.sessionLog id (s.incarnation id)) q session

section Logs

theorem sessionLog_append (event : HistoryEvent) (id : SessionId) (k : Nat) :
    (s.append event).sessionLog id k = s.sessionLog id k ++ if event.Of id k then [event] else [] := by
  rw [Server.sessionLog, Server.append, List.filter_append, Server.sessionLog]
  congr 1
  by_cases h : event.Of id k
  · simp [h]
  · simp [h]

theorem sessionLog_append_self (event : HistoryEvent) :
    (s.append event).sessionLog event.sessionId event.incarnation =
      s.sessionLog event.sessionId event.incarnation ++ [event] := by
  rw [sessionLog_append, if_pos ⟨rfl, rfl⟩]

theorem sessionLog_append_other {event : HistoryEvent} (h : id ≠ event.sessionId) (k : Nat) :
    (s.append event).sessionLog id k = s.sessionLog id k := by
  rw [sessionLog_append, if_neg fun hof => h hof.1.symm, List.append_nil]

theorem incarnation_append (event : HistoryEvent) (id : SessionId) :
    (s.append event).incarnation id = s.incarnation id + if event.Opens id then 1 else 0 := by
  simp only [Server.append, Server.incarnation, List.countP_append, List.countP_singleton, decide_eq_true_eq]

theorem Logged.append (h : Logged timely s) {event : HistoryEvent}
    (hk : event.incarnation ≤ (s.append event).incarnation event.sessionId)
    (ha : Allowed timely (s.sessionLog event.sessionId event.incarnation) event) : Logged timely (s.append event) := by
  constructor
  · intro event' he
    rcases List.mem_append.mp he with hold | hnew
    · refine (h.past event' hold).trans ?_
      rw [incarnation_append]
      exact Nat.le_add_right _ _
    · obtain rfl := List.mem_singleton.mp hnew
      exact hk
  · intro id k
    rw [sessionLog_append]
    split
    · next hof =>
      obtain ⟨rfl, rfl⟩ := hof
      exact (h.guarded _ _).snoc ha
    · rw [List.append_nil]
      exact h.guarded id k

/-- The log of the session that comes next is still empty. -/
theorem Logged.fresh (h : Logged timely s) (id : SessionId) : s.sessionLog id (s.incarnation id + 1) = [] := by
  apply List.filter_eq_nil_iff.mpr
  intro event he hof
  rw [decide_eq_true_eq] at hof
  obtain ⟨rfl, hk⟩ := hof
  have hle := h.past event he
  omega

theorem not_opens_of_payload {e : Forwarded} {id : SessionId} (h : ¬e.IsRequest) : ¬(HistoryEvent.forwarded e).Opens id :=
  fun hopens => h hopens.1

theorem passes_not_opens (s : Server) (now : Moment) (authenticated : ControlSessionGuard) {envelope : RendezvousEnvelope} (permit : Permit)
    (h : ∀ value, envelope.payload ≠ .request value) (id : SessionId) : ¬(s.passes envelope authenticated permit now).Opens id :=
  not_opens_of_payload fun ⟨value, hvalue⟩ => h value hvalue

/-- The end of a session does not count as one more. -/
theorem incarnation_tombstones (removed : List (SessionId × StoredSession)) {state : CoordinatorState} (id : SessionId) :
    Server.incarnation { s with state, history := s.history ++ removed.map fun p => .tombstoned p.1 (s.incarnation p.1) } id =
      s.incarnation id := by
  rw [Server.incarnation, List.countP_append, List.countP_map, Server.incarnation, Nat.add_eq_left, List.countP_eq_zero]
  intro p _
  exact fun hopens => of_decide_eq_true hopens

end Logs

theorem incarnation_append_other {event : HistoryEvent} (h : id ≠ event.sessionId) :
    (s.append event).incarnation id = s.incarnation id := by
  rw [incarnation_append, if_neg, Nat.add_zero]
  intro hopens
  cases event with
  | forwarded e => exact h hopens.2.symm
  | relayed _ | tombstoned _ _ => exact hopens

theorem Logged.append_present (h : Logged timely s) {event : HistoryEvent}
    (hk : event.incarnation = s.incarnation event.sessionId)
    (ha : Allowed timely (s.sessionLog event.sessionId event.incarnation) event) : Logged timely (s.append event) := by
  refine h.append ?_ ha
  rw [hk, incarnation_append]
  exact Nat.le_add_right _ _

theorem Logged.withState (h : Logged timely s) (state : CoordinatorState) : Logged timely { s with state } :=
  ⟨h.past, h.guarded⟩

section Changes

variable {state : CoordinatorState}

/-- A change that leaves no trace in the history. -/
theorem Recorded.silent (h : Recorded timely s) (hk : Kept { s with state })
    (hactive : ∀ {id session}, state.activeSession id = some session → ∃ old, s.state.activeSession id = some old ∧
      ∀ {log q}, Tracks log q old → Tracks log q session) : Recorded timely { s with state } where
  kept := hk
  logged := h.logged.withState state
  tracks := by
    intro id session hsession
    obtain ⟨old, hold, hkeeps⟩ := hactive hsession
    obtain ⟨q, hq⟩ := h.tracks hold
    exact ⟨q, hkeeps hq⟩

/-- Where the stored sessions other than the one of the event stay, their logs do. -/
theorem Recorded.append (h : Recorded timely s) {event : HistoryEvent} (hk : Kept ({ s with state }.append event))
    (hl : Logged timely (s.append event))
    (hactive : ∀ {id session}, state.activeSession id = some session →
      (id = event.sessionId ∧
          ∃ q, Tracks ((s.append event).sessionLog id ((s.append event).incarnation id)) q session) ∨
        (id ≠ event.sessionId ∧ s.state.activeSession id = some session)) :
    Recorded timely ({ s with state }.append event) where
  kept := hk
  logged := hl.withState state
  tracks := by
    intro id session hsession
    rcases hactive hsession with ⟨_, hq⟩ | ⟨hne, hold⟩
    · exact hq
    · obtain ⟨q, hq⟩ := h.tracks hold
      refine ⟨q, ?_⟩
      have hlog := sessionLog_append_other (s := s) hne (s.incarnation id)
      have hsame := incarnation_append_other (s := s) hne
      rw [← hlog, ← hsame] at hq
      exact hq

/-- The present session passes on an envelope or a frame. -/
theorem Recorded.present (h : Recorded timely s) {sessionId : SessionId} {old session : StoredSession}
    {event : HistoryEvent} (hold : s.state.activeSession sessionId = some old) (hid : event.sessionId = sessionId)
    (hpresent : event.incarnation = s.incarnation sessionId) (hnew : ¬event.Opens sessionId)
    (hk : Kept ((s.put sessionId session).append event))
    (hnext : ∀ {q}, Tracks (s.sessionLog sessionId event.incarnation) q old →
      Allowed timely (s.sessionLog sessionId event.incarnation) event ∧
        Tracks (s.sessionLog sessionId event.incarnation ++ [event]) q session) :
    Recorded timely ((s.put sessionId session).append event) := by
  subst hid
  obtain ⟨q, hq⟩ := h.tracks hold
  rw [← hpresent] at hq
  obtain ⟨hallowed, htracks⟩ := hnext hq
  refine h.append hk (h.logged.append_present hpresent hallowed) ?_
  intro id session' hactive
  rcases active_put hactive with ⟨rfl, rfl⟩ | ⟨hne, hother⟩
  · refine .inl ⟨rfl, q, ?_⟩
    rw [incarnation_append, if_neg hnew, Nat.add_zero, ← hpresent, sessionLog_append_self]
    exact htracks
  · exact .inr ⟨hne, hother⟩

theorem Recorded.opened (h : Recorded timely s) {plan : RequestPlan}
    (hr : Requested c s now authenticated envelope plan)
    (hk : Kept ({ s with state := openSession s.state (newSession s.registry now envelope plan) }.append
      (s.opens envelope authenticated plan.permit now))) :
    Recorded timely ({ s with state := openSession s.state (newSession s.registry now envelope plan) }.append
      (s.opens envelope authenticated plan.permit now)) := by
  generalize hevent : s.opens envelope authenticated plan.permit now = event at hk ⊢
  have hid : event.sessionId = envelope.sessionId := by rw [← hevent]; rfl
  have hnext : event.incarnation = s.incarnation envelope.sessionId + 1 := by rw [← hevent]; rfl
  have hopens : event.Opens envelope.sessionId := by
    rw [← hevent]
    exact ⟨⟨_, hr.payload⟩, rfl⟩
  have hinc : (s.append event).incarnation envelope.sessionId = event.incarnation := by
    rw [incarnation_append, if_pos hopens, hnext]
  have hfresh : s.sessionLog envelope.sessionId event.incarnation = [] := by
    rw [hnext]
    exact h.logged.fresh envelope.sessionId
  refine h.append hk (h.logged.append ?_ ?_) ?_
  · rw [hid, hinc]
  · rw [hid, hfresh, ← hevent]
    exact .opens ⟨_, hr.payload⟩ hr.timely
  · intro id session hactive
    rcases active_open hactive with ⟨hsame, rfl⟩ | ⟨hne, hold⟩
    · obtain rfl : id = envelope.sessionId := hsame
      refine .inl ⟨hid.symm, ?_⟩
      rw [hinc, ← hid, sessionLog_append_self, hid, hfresh, ← hevent]
      exact ⟨_, tracks_new hr _⟩
    · exact .inr ⟨hid.symm ▸ hne, hold⟩

theorem Recorded.closed (h : Recorded timely s) {plan : ClosePlan} (hc : Closing s now authenticated envelope plan)
    (hp : permit.identity = plan.target.identity) (hk : Kept (s.closedBy authenticated envelope plan permit now)) :
    Recorded timely (s.closedBy authenticated envelope plan permit now) := by
  obtain ⟨q, hq⟩ := h.tracks hc.session
  have hpasses : ∃ last, Passes (s.sessionLog envelope.sessionId (s.incarnation envelope.sessionId)) q last
      ⟨s.incarnation envelope.sessionId, envelope, authenticated.identity, permit.identity, now⟩ := by
    apply hq.passes hc.step hc.timely hc.between hp
    · exact fun hforwardable => absurd hc.payload (not_isClosing hforwardable)
    · exact fun _ _ => .inl hc.generation
  obtain ⟨last, hpasses⟩ := hpasses
  have hfirst : Logged timely (s.append (s.passes envelope authenticated permit now)) :=
    h.logged.append_present rfl (.passes hpasses)
  have hboth : Logged timely ((s.append (s.passes envelope authenticated permit now)).append
      (.tombstoned envelope.sessionId
        ((s.append (s.passes envelope authenticated permit now)).incarnation envelope.sessionId))) :=
    hfirst.append_present rfl .ends
  refine ⟨hk, hboth.withState _, ?_⟩
  intro id session hactive
  obtain ⟨hne, hput⟩ := active_tombstone hactive
  rcases active_put hput with ⟨heq, _⟩ | ⟨_, hold⟩
  · exact absurd heq hne
  obtain ⟨q', hq'⟩ := h.tracks hold
  refine ⟨q', ?_⟩
  have hlog : (s.closedBy authenticated envelope plan permit now).sessionLog id (s.incarnation id) =
      s.sessionLog id (s.incarnation id) :=
    (sessionLog_append_other hne _).trans (sessionLog_append_other (s := s) hne _)
  have hinc : (s.closedBy authenticated envelope plan permit now).incarnation id = s.incarnation id :=
    (incarnation_append_other hne).trans (incarnation_append_other (s := s) hne)
  rw [hinc, hlog]
  exact hq'

theorem Recorded.change (h : Recorded timely s) (hs : Change c timely s s') : Recorded timely s' := by
  have hk := h.kept.change hs
  cases hs with
  | registry r hr => exact ⟨hk, ⟨h.logged.past, h.logged.guarded⟩, h.tracks⟩
  | opened hplan => exact h.opened (requestPlan_eq_ok hplan) hk
  | @decided now authenticated envelope plan permit hplan hp =>
      have hd := decisionPlan_eq_ok hplan
      have hbetween : Between plan.session authenticated.identity plan.session.consumer := by
        refine .inr ⟨?_, hd.sender, rfl⟩
        intro hconsumer
        exact (h.kept.coherent hd.session).distinct (hconsumer.1.trans hd.sender.1.symm)
      have hpayload (hforwardable : IsForwardable envelope.payload) : plan.session.metadata.protocol ≠ none := by
        rw [hd.payload] at hforwardable
        exact hforwardable.elim
      refine h.present hd.session rfl rfl ?_ hk ?_
      · rintro ⟨⟨value, hvalue⟩, _⟩
        exact nomatch hd.payload.symm.trans hvalue
      · intro q hq
        obtain ⟨last, hpasses⟩ := hq.passes (e := ⟨s.incarnation envelope.sessionId, envelope, authenticated.identity,
          permit.identity, now⟩) hd.step hd.timely hbetween (reserveTo_eq_ok.mp hp).2 hpayload
          (fun _ _ => .inl hd.generation)
        exact ⟨.passes hpasses, hq.decided rfl hd _ rfl rfl⟩
  | @forwarded now authenticated envelope plan permit hplan hp =>
      have hf := forwardPlan_eq_ok hplan
      have hc := h.kept.coherent hf.session
      refine h.present hf.session rfl rfl ?_ hk ?_
      · rintro ⟨⟨value, hvalue⟩, _⟩
        have hpayload := hf.payload
        rw [show envelope.payload = _ from hvalue] at hpayload
        exact hpayload
      · intro q hq
        obtain ⟨last, hpasses⟩ := hq.passes (e := ⟨s.incarnation envelope.sessionId, envelope, authenticated.identity,
          permit.identity, now⟩) hf.step hf.timely hf.between (reserveTo_eq_ok.mp hp).2 (fun _ => hf.accepted)
          (fun _ hlast => hq.advances (hf.participant ▸ hf.generation) hlast)
        exact ⟨.passes hpasses, hq.forwarded hc (h.logged.guarded _ _) hf rfl rfl⟩
  | closed hplan hp => exact h.closed (closePlan_eq_ok hplan) (reserveTo_eq_ok.mp hp).2 hk
  | entombed hactive =>
      refine h.append hk (h.logged.append_present rfl .ends) ?_
      intro id session hsession
      exact .inr (active_tombstone hsession)
  | admitted now frame hactive =>
      refine h.silent hk ?_
      intro id session hsession
      rcases active_put hsession with ⟨rfl, rfl⟩ | ⟨_, hother⟩
      · exact ⟨_, hactive, fun hq => hq.admitted⟩
      · exact ⟨_, hother, fun hq => hq⟩
  | @relayed now authenticated frame session target permit hactive ht ha hp hl =>
      refine h.present hactive rfl rfl (fun hopens => hopens) hk ?_
      intro q hq
      obtain ⟨hrelays, htracks⟩ := hq.relayed s.registry (r := ⟨s.incarnation frame.sessionId, frame,
        authenticated.identity, permit.identity, now, (admittedSession now frame session).relay.windowStarted⟩)
        ⟨rfl, rfl, rfl, rfl⟩ ht (reserveTo_eq_ok.mp hp).2 ha (h.kept.coherent hactive) hl
      exact ⟨.relays hrelays, htracks⟩
  | flushed now hactive =>
      refine h.silent hk ?_
      intro id session hsession
      rcases active_put hsession with ⟨rfl, rfl⟩ | ⟨_, hother⟩
      · exact ⟨_, hactive, fun hq => hq.core flushSession_core⟩
      · exact ⟨_, hother, fun hq => hq⟩
  | discarded => exact h.silent hk fun hsession => ⟨_, hsession, fun hq => hq⟩
  | purged => exact h.silent hk fun hsession => ⟨_, (active_erase hsession).2, fun hq => hq⟩

end Changes

theorem recorded_new (maxClients : Nat) : Recorded timely (.new maxClients) where
  kept := kept_new maxClients
  logged := ⟨fun _ he => (nomatch he), fun _ _ => .nil⟩
  tracks := by
    intro id session hactive
    exact nomatch activeSession_eq_some.mp hactive

theorem recorded_run {maxClients : Nat} {ops : List Operation} (h : Run (Step c) (.new maxClients) ops s) :
    Recorded False s := run_invariant (fun _ _ => Recorded.change) h (recorded_new maxClients)

/-- Both participants announce their candidates, and one begins the next generation. -/
def sampleAdvances : List Operation :=
  sampleConnect ++ sampleAccepted (sampleId 1) deviceA deviceB ++ [
    .forwardEnvelope (sampleMoment 20) sampleToken deviceB (sampleCandidates deviceB deviceA 3 1 CandidateGeneration.one_ne_zero false),
    .forwardEnvelope (sampleMoment 30) sampleToken deviceA (sampleCandidates deviceA deviceB 4 1 CandidateGeneration.one_ne_zero true),
    .forwardEnvelope (sampleMoment 300) sampleToken deviceA (sampleCandidates deviceA deviceB 5 2 CandidateGeneration.two_ne_zero true)]

end Rustgo.Coordinator
