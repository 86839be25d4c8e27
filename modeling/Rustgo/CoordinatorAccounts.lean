import Rustgo.CoordinatorWords

namespace Rustgo.Coordinator

open Checks Protocol Registry Rendezvous Tables RendezvousCoordinator CoordinatorState Runs

variable {c : RendezvousCoordinator} {s s' : Server} {now : Moment} {token : Vector UInt8 32} {authenticated : ControlSessionGuard}
  {envelope : RendezvousEnvelope} {frame : PeerRelayFrame} {id : SessionId} {session : StoredSession}
  {state : CoordinatorState} {identity : AuthenticatedClient} {notes : List Note}
  {result : Except RendezvousErrorCode Unit}

def AllVisible (state : CoordinatorState) : Prop := ∀ id session, state.activeSession id = some session → Visible session

namespace AllVisible

theorem put (h : AllVisible state) (hv : Visible session) : AllVisible (state.putSession id session) := by
  intro other session' hactive
  rcases active_put hactive with ⟨_, rfl⟩ | ⟨_, hold⟩
  · exact hv
  · exact h _ _ hold

theorem tombstone (h : AllVisible state) : AllVisible (state.tombstoneSession id).1 :=
  fun _ _ hactive => h _ _ (active_tombstone hactive).2

theorem erase (h : AllVisible state) {counts : Table DeviceName Nat} {expiry : MinHeap ExpiryEntry} :
    AllVisible ⟨state.sessions.erase id, counts, expiry⟩ := fun _ _ hactive => h _ _ (active_erase hactive).2

theorem change {timely : Prop} (h : AllVisible s.state) (hs : Change c timely s s') : AllVisible s'.state := by
  cases hs with
  | registry | discarded => exact h
  | purged => exact h.erase
  | entombed => exact h.tombstone
  | opened =>
      intro other session' hactive
      rcases active_open hactive with ⟨_, rfl⟩ | ⟨_, hold⟩
      · exact ⟨fun hpath => absurd rfl hpath, fun _ => rfl⟩
      · exact h _ _ hold
  | decided hplan => exact h.put (h _ _ (decisionPlan_eq_ok hplan).session).decided
  | forwarded hplan =>
      have hforwarding := forwardPlan_eq_ok hplan
      exact h.put ((h _ _ hforwarding.session).forward hforwarding.accepted)
  | @closed _ _ envelope plan _ hplan =>
      have hv := h _ _ (closePlan_eq_ok hplan).session
      have hput : AllVisible (s.state.putSession envelope.sessionId { plan.session with state := plan.next }) := h.put ⟨hv.path, hv.traffic⟩
      exact hput.tombstone
  | admitted now frame hold => exact h.put ((h _ _ hold).of_kept rfl rfl fun _ => rfl)
  | relayed hold =>
      obtain ⟨hmetadata, hpath, htraffic⟩ := relayedSession_kept _ _ _ _ _
      exact h.put ((h _ _ hold).of_kept hmetadata hpath htraffic)
  | flushed now hold => exact h.put (h _ _ hold).flush

theorem changes {timely : Prop} (h : AllVisible s.state) (hs : Changes c timely s s') : AllVisible s'.state :=
  Changes.invariant (P := fun s => AllVisible s.state) (fun _ _ => change) hs h

end AllVisible

theorem relaySession_active (h : relaySession s authenticated frame = .ok (some session)) :
    s.state.activeSession frame.sessionId = some session := by
  rw [relaySession] at h
  split at h
  · next session' hlookup =>
    obtain rfl := Option.some.inj (Except.ok.inj h)
    exact activeSession_eq_some.mpr hlookup
  · split at h
    · cases h
    · cases h
  · cases h

namespace Accounts

theorem put (hold : s.state.activeSession id = some session) {session' : StoredSession} {events : List ObservationEvent}
    (hext : Extends (some session) (some session') events) : Accounts s (s.put id session') (events.map (s.note id)) := by
  refine at_session id (fun _ => rfl) (fun other hother => activeSession_put_ne hother) ?_
  rw [hold]
  exact activeSession_put_self.symm ▸ hext

theorem entomb (hold : s.state.activeSession id = some session) {events : List ObservationEvent}
    (hext : Extends (some session) none events) : Accounts s (s.entomb id) (events.map (s.note id)) := by
  refine at_session id (fun _ => rfl) (fun other hother => activeSession_tombstone_ne hother) ?_
  rw [hold]
  exact activeSession_tombstone_self.symm ▸ hext

/-- The record of what was forwarded matters by the number of the sessions that it opens. -/
theorem withHistory (h : Accounts s s' notes) (history : List HistoryEvent)
    (hincarnation : ∀ id, Server.incarnation { s' with history } id = s'.incarnation id) : Accounts s { s' with history } notes := by
  intro key w hw
  rw [Server.phase, hincarnation]
  exact h key w hw

theorem withEvent (h : Accounts s s' notes) {event : HistoryEvent} (hnew : ∀ id, ¬event.Opens id) : Accounts s (s'.append event) notes := by
  refine h.withHistory _ fun id => (incarnation_append event id).trans ?_
  rw [if_neg (hnew id), Nat.add_zero]

theorem withRegistry (h : Accounts s s' notes) (r : ClientRegistry) : Accounts s { s' with registry := r } notes :=
  fun key w hw => h key w hw

theorem refl (s : Server) : Accounts s s [] := of_same (fun _ => rfl) fun _ => rfl

/-- The sessions of a device are entombed one after the other. -/
theorem remove (hv : AllVisible s.state) (order : List SessionId) : Accounts s { s with state := (removeLoop identity order s.state).2 }
    ((removeLoop identity order s.state).1.flatMap fun p => (c.closeEvents p.2 "peer-disconnected" now).map (s.note p.1)) := by
  induction order generalizing s with
  | nil => exact of_same (fun _ => rfl) fun _ => rfl
  | cons id order ih =>
      rw [removeLoop]
      split
      · exact ih hv
      · next session hactive =>
        split
        · have hclosed := entomb hactive (Extends.close c now (hv _ _ hactive) "peer-disconnected")
          have hrest := ih (s := s.entomb id) hv.tombstone
          exact hclosed.trans hrest
        · exact ih hv

theorem flush (hv : AllVisible s.state) {order : List SessionId} (hnodup : order.Nodup) :
    Accounts s { s with state := (c.flushLoop now order s.state).2 }
      (order.flatMap fun id => (s.state.activeSession id).elim [] fun session => (c.flushSession now session).2.map (s.note id)) := by
  induction order generalizing s with
  | nil => exact of_same (fun _ => rfl) fun _ => rfl
  | cons id order ih =>
      obtain ⟨hnew, hnodup⟩ := List.nodup_cons.mp hnodup
      rw [flushLoop, List.flatMap_cons]
      cases hactive : s.state.activeSession id with
      | none => exact ih hv hnodup
      | some session =>
          have hfirst := put hactive (Extends.flush c now (hv _ _ hactive))
          have hrest := ih (s := s.put id (c.flushSession now session).1) (hv.put (hv _ _ hactive).flush) hnodup
          have hevents : (order.flatMap fun id => (s.state.activeSession id).elim [] fun session => (c.flushSession now session).2.map (s.note id)) =
              order.flatMap fun other => ((s.put id (c.flushSession now session).1).state.activeSession other).elim [] fun session =>
                (c.flushSession now session).2.map (s.note other) := by
            refine List.flatMap_congr fun other hother => ?_
            have hne : other ≠ id := fun heq => hnew (heq ▸ hother)
            rw [Server.put, activeSession_put_ne hne]
          rw [hevents]
          exact hfirst.trans hrest

variable (c now) in
/-- Sessions go with their expiry, and the active ones among them are closed. -/
theorem expire (hv : AllVisible s.state) (hk : ∀ id session, s.state.activeSession id = some session → session.metadata.sessionId = id)
    {n : Nat} {bound : UInt64} {removed : List StoredSession} (h : s.state.expireLoop bound n = some (removed, state)) :
    Accounts s { s with state }
      (removed.flatMap fun session => (c.closeEvents session "expired" now).map (s.note session.metadata.sessionId)) := by
  induction n generalizing s removed with
  | zero =>
      obtain ⟨rfl, rfl⟩ := Prod.mk.inj (Option.some.inj h)
      exact of_same (fun _ => rfl) fun _ => rfl
  | succ n ih =>
      rw [CoordinatorState.expireLoop] at h
      split at h
      · obtain ⟨rfl, rfl⟩ := Prod.mk.inj (Option.some.inj h)
        exact of_same (fun _ => rfl) fun _ => rfl
      · next next hpeek =>
        split at h
        · obtain ⟨rfl, rfl⟩ := Prod.mk.inj (Option.some.inj h)
          exact of_same (fun _ => rfl) fun _ => rfl
        · dsimp only at h
          split at h
          · exact ih (s := { s with state := { s.state with expiry := s.state.expiry.pop } }) hv hk h
          · next record hrecord =>
            split at h
            · obtain ⟨counts, _, h⟩ := Option.bind_eq_some_iff.mp h
              obtain ⟨⟨removed', state'⟩, hrest, h⟩ := Option.bind_eq_some_iff.mp h
              obtain ⟨rfl, rfl⟩ := Prod.mk.inj (Option.some.inj h)
              have hlater := ih (s := { s with state := ⟨s.state.sessions.erase next.sessionId, counts, s.state.expiry.pop⟩ }) hv.erase
                (fun id session hactive => hk id session (active_erase hactive).2) hrest
              rw [List.flatMap_append]
              refine Accounts.trans ?_ hlater
              cases record with
              | active session =>
                  have hactive := activeSession_eq_some.mpr hrecord
                  rw [SessionRecord.active?, Option.toList_some, List.flatMap_singleton, hk _ _ hactive]
                  refine at_session next.sessionId (fun _ => rfl) (fun other hother => activeSession_erase_ne hother) ?_
                  rw [hactive, activeSession_erase_self]
                  exact Extends.close c now (hv _ _ hactive) "expired"
              | tombstone tombstone =>
                  refine of_same (fun _ => rfl) fun id => ?_
                  by_cases hid : id = next.sessionId
                  · rw [hid, activeSession_erase_self, activeSession, hrecord]
                    rfl
                  · exact activeSession_erase_ne hid
            · exact ih (s := { s with state := { s.state with expiry := s.state.expiry.pop } }) hv hk h

/-- A session that opens has not been told of. -/
theorem opened {plan : RequestPlan} (h : Requested c s now authenticated envelope plan) :
    Accounts s ({ s with state := openSession s.state (newSession s.registry now envelope plan) }.append
      (s.opens envelope authenticated plan.permit now)) [] := by
  generalize hs' : ({ s with state := openSession s.state (newSession s.registry now envelope plan) }.append
    (s.opens envelope authenticated plan.permit now)) = s'
  have hincarnation (id : SessionId) : s'.incarnation id = s.incarnation id +
      if HistoryEvent.Opens id (s.opens envelope authenticated plan.permit now) then 1 else 0 :=
    hs' ▸ incarnation_append (s := { s with state := openSession s.state (newSession s.registry now envelope plan) }) _ id
  have hstate : s'.state = openSession s.state (newSession s.registry now envelope plan) := hs' ▸ rfl
  have habsent : s.state.activeSession envelope.sessionId = none := by
    rw [activeSession, Finmap.lookup_eq_none.mpr h.absent]
    rfl
  rintro ⟨id, k⟩ w hw
  rw [kindsOf_other fun _ hnote => absurd hnote List.not_mem_nil, List.append_nil]
  simp only [Server.phase] at hw ⊢
  rw [hincarnation, hstate]
  by_cases hid : id = envelope.sessionId
  · have hopens : HistoryEvent.Opens id (s.opens envelope authenticated plan.permit now) := ⟨⟨_, h.payload⟩, hid.symm⟩
    have hactive : (openSession s.state (newSession s.registry now envelope plan)).activeSession id = some (newSession s.registry now envelope plan) := by
      rw [hid]
      exact activeSession_open_self s.state (newSession s.registry now envelope plan)
    rw [if_pos hopens, hactive]
    rcases Nat.lt_trichotomy k (s.incarnation id) with hlt | rfl | hgt
    · rw [if_pos hlt] at hw
      rw [if_pos (Nat.lt_succ_of_lt hlt)]
      exact hw
    · rw [if_neg (Nat.lt_irrefl _), if_pos rfl, hid, habsent] at hw
      rw [if_pos (Nat.lt_succ_self _)]
      exact hw
    · rw [if_neg (Nat.not_lt_of_lt hgt), if_neg hgt.ne'] at hw
      rw [if_neg (Nat.not_lt_of_le hgt)]
      split
      · exact hw
      · exact hw
  · have hactive : (openSession s.state (newSession s.registry now envelope plan)).activeSession id = s.state.activeSession id :=
      activeSession_open_ne hid
    have hnew : ¬HistoryEvent.Opens id (s.opens envelope authenticated plan.permit now) := fun hopens => hid hopens.2.symm
    rw [if_neg hnew, Nat.add_zero, hactive]
    exact hw

/-- A rejected session was never shown. -/
theorem decision (hk : Kept s) (hv : AllVisible s.state) (h : providerDecision now authenticated envelope s = some (result, s')) : Accounts s s' [] := by
  rcases providerDecision_cases h with ⟨_, _, rfl⟩ | ⟨plan, permit, hplan, _, _, rfl⟩
  · exact refl _
  have hdecided := decisionPlan_eq_ok hplan
  have hnew (id : SessionId) : ¬(s.passes envelope authenticated permit now).Opens id :=
    passes_not_opens s now authenticated permit (fun value hvalue => by cases hdecided.payload.symm.trans hvalue) id
  have hpath : (decidedSession plan).observedPath = plan.session.observedPath := by
    rw [decidedSession]
    dsimp only
    split
    · rfl
    · rfl
  have hput : Accounts s ((s.put envelope.sessionId (decidedSession plan)).append (s.passes envelope authenticated permit now)) [] :=
    (put hdecided.session (Extends.same _ _ hpath)).withEvent hnew
  split
  · exact hput.withRegistry _
  · have hnone : plan.session.observedPath = none := by
      by_contra hshown
      have hphase := (hk.coherent hdecided.session).accepted.mpr ((hv _ _ hdecided.session).path hshown)
      cases hdecided.phase.symm.trans hphase
    have hleft := entomb (s := (s.put envelope.sessionId (decidedSession plan)).append (s.passes envelope authenticated permit now))
      activeSession_put_self (Extends.leave (hpath.trans hnone))
    exact ((hput.trans hleft).withEvent fun _ => id).withRegistry _

theorem forward (h : c.forwardEnvelope now token authenticated envelope s = some (result, s')) :
    Accounts s s' ((CriticalSection.forwardEnvelope now token authenticated envelope).notes c s) := by
  rcases forwardEnvelope_notes h with ⟨rfl, hnotes⟩ | ⟨plan, permit, hplan, _, hnotes, hgrant⟩
  · rw [hnotes]
    exact refl _
  have hforwarding := forwardPlan_eq_ok hplan
  have hnew (id : SessionId) : ¬(s.passes envelope authenticated permit now).Opens id :=
    passes_not_opens s now authenticated permit (fun value hvalue => by
      have hpayload := hforwarding.payload
      rw [hvalue] at hpayload
      exact hpayload) id
  rw [hnotes]
  have hput := put hforwarding.session (Extends.forward c now authenticated envelope)
  have hforwarded := (hput.withEvent hnew).withRegistry (s.forwardedBy c now authenticated envelope plan permit).registry
  rcases sendGrant_cases hgrant with ⟨_, _, rfl⟩ | ⟨_, _, rfl, _⟩ | ⟨_, _, _, _, _, _, _, rfl⟩
  · exact hforwarded
  · exact hforwarded
  · exact hforwarded.withRegistry _

theorem close (hv : AllVisible s.state) (h : c.closeSession now authenticated envelope s = some (result, s')) :
    Accounts s s' ((CriticalSection.closeSession now authenticated envelope).notes c s) := by
  rcases closeSession_notes h with ⟨rfl, hnotes⟩ | ⟨plan, permit, hplan, _, hnotes, rfl⟩
  · rw [hnotes]
    exact refl _
  have hclosing := closePlan_eq_ok hplan
  have hnew (id : SessionId) : ¬(s.passes envelope authenticated permit now).Opens id :=
    passes_not_opens s now authenticated permit (fun value hvalue => by
      have hpayload := hclosing.payload
      rw [hvalue] at hpayload
      exact hpayload) id
  have hv := hv _ _ hclosing.session
  have hput : Accounts s (s.put envelope.sessionId { plan.session with state := plan.next }) [] :=
    put hclosing.session (Extends.same plan.session { plan.session with state := plan.next } rfl)
  have hvisible : Visible { plan.session with state := plan.next } := ⟨hv.path, hv.traffic⟩
  have hclosed := entomb (s := s.put envelope.sessionId { plan.session with state := plan.next }) activeSession_put_self
    (Extends.close c now hvisible "closed")
  rw [hnotes]
  refine ((hput.trans hclosed).withHistory _ fun id => ?_).withRegistry _
  refine incarnation_tombstoned.trans ((incarnation_append _ id).trans ?_)
  rw [if_neg (hnew id), Nat.add_zero]
  rfl

/-- A frame is counted, and nothing is told of it yet. -/
theorem relay (h : relaySection now authenticated frame s = some (result, s')) : Accounts s s' [] := by
  rcases Call.read_bind_cases h with ⟨_, _, hr⟩ | ⟨session, hsession, hr⟩
  · obtain ⟨_, rfl⟩ := Prod.mk.inj hr
    exact refl _
  cases session with
  | none =>
      obtain ⟨_, rfl⟩ := Prod.mk.inj (Option.some.inj hr)
      exact refl _
  | some session =>
      have hactive := relaySession_active hsession
      rcases relayFrame_cases hr with ⟨_, _, rfl⟩ | ⟨_, _, rfl⟩ | ⟨_, permit, message, _, _, _, _, _, rfl⟩
      · exact refl _
      · exact put hactive (Extends.same session (admittedSession now frame session) rfl)
      · have hrelayed := put hactive (Extends.same session _ (relayedSession_kept now authenticated frame session s.registry).2.1)
        exact (hrelayed.withEvent fun _ => id).withRegistry _

/-- What a section has to publish accounts for what it does to the sessions. -/
theorem enter (hk : Kept s) (hv : AllVisible s.state) {cs : CriticalSection} (hi : cs.Iterates s)
    (h : cs.enter c s = some (result, s')) : Accounts s s' (cs.notes c s) := by
  cases cs with
  | request now authenticated envelope =>
      rw [CriticalSection.enter, Call.bind_apply] at h
      obtain ⟨⟨r₁, t⟩, ht, h⟩ := Option.bind_eq_some_iff.mp h
      have haccounts : Accounts s t [] := by
        rcases request_cases ht with ⟨_, _, rfl⟩ | ⟨plan, hplan, _, rfl⟩
        · exact refl _
        · exact (opened (requestPlan_eq_ok hplan)).withRegistry _
      cases r₁ with
      | ok _ =>
          obtain ⟨_, rfl⟩ := Prod.mk.inj (Option.some.inj h)
          exact haccounts
      | error _ =>
          obtain ⟨_, rfl⟩ := Prod.mk.inj (Option.some.inj h)
          exact haccounts
  | providerDecision now authenticated envelope => exact decision hk hv h
  | forwardEnvelope now token authenticated envelope => exact forward h
  | closeSession now authenticated envelope => exact close hv h
  | expireSessionsBatch now =>
      obtain ⟨removed, state, hloop, _, rfl⟩ := expireSessionsBatch_cases h
      rw [CriticalSection.notes, hloop]
      have hexpired := expire c now hv (fun _ _ hactive => (hk.coherent hactive).sessionId) hloop
      exact hexpired.withRegistry _
  | relayFrame now authenticated frame => exact relay h
  | flushObservabilityDue now order =>
      obtain ⟨_, rfl⟩ := Prod.mk.inj (Option.some.inj h)
      rw [CriticalSection.notes]
      dsimp only
      split
      · exact (flush hv hi.1).withRegistry _
      · exact refl s
  | removeDevice now identity order =>
      obtain ⟨_, rfl⟩ := Prod.mk.inj (Option.some.inj h)
      exact ((remove hv order).withHistory _ (incarnation_tombstones _)).withRegistry _

end Accounts

end Rustgo.Coordinator
