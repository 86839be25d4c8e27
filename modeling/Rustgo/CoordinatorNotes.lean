import Rustgo.CoordinatorSections

namespace Rustgo.Coordinator

open Checks Protocol Registry Rendezvous Tables RendezvousCoordinator CoordinatorState Runs

variable {c : RendezvousCoordinator} {s s' : Server} {now : Moment} {token : Vector UInt8 32}
  {authenticated : ControlSessionGuard} {envelope : RendezvousEnvelope} {frame : PeerRelayFrame}
  {result : Except RendezvousErrorCode Unit} {r r' r'' : ClientRegistry} {events events' : List ObservationEvent}

/-- A call made alone is its sections one after the other. -/
theorem forwardRelayFrame_sections (now : Moment) (authenticated : ControlSessionGuard) (frame : PeerRelayFrame) :
    c.forwardRelayFrame now authenticated frame = (do
      Call.read fun s => require (s.registry.isActiveSession authenticated.identity = true) .identityMismatch
      (CriticalSection.expireSessionsBatch now).enter c
      (CriticalSection.relayFrame now authenticated frame).enter c) := rfl

theorem expireNow_sections (now : Moment) (order : List SessionId) : c.expireNow now order = (do
    (CriticalSection.expireSessionsBatch now).enter c
    (CriticalSection.flushObservabilityDue now order).enter c) := rfl

/-- The sink of the registry, if there is one, has been told these events. -/
def Tells (r r' : ClientRegistry) (events : List ObservationEvent) : Prop :=
  r'.observability = r.observability.map (· ++ events)

namespace Tells

theorem of_same (h : r'.observability = r.observability) : Tells r r' [] := by
  rw [Tells, h]
  cases r.observability with
  | none => rfl
  | some told => exact congrArg some (List.append_nil told).symm

theorem trans (h : Tells r r' events) (h' : Tells r' r'' events') : Tells r r'' (events ++ events') := by
  rw [Tells, h', h, Option.map_map]
  refine congrArg (r.observability.map ·) ?_
  funext told
  exact List.append_assoc told events events'

theorem trySend (name : DeviceName) (message : Message) : Tells r (r.trySend name message) [] := by
  refine of_same ?_
  rw [ClientRegistry.trySend, ClientRegistry.mapRuntime]
  split
  · rfl
  · rfl

theorem all (r : ClientRegistry) (events : List ObservationEvent) : Tells r (tryObserveAll r events) events := by
  induction events generalizing r with
  | nil => exact of_same rfl
  | cons event events ih =>
      have hfirst : Tells r (r.tryObserve event) [event] := rfl
      exact hfirst.trans (ih _)

variable (c now r) in
theorem close (session : StoredSession) (reason : String) : Tells r (observeP2pClose c r session reason now) (c.closeEvents session reason now) := by
  have htraffic := all r (p2pTrafficEvent c session session.pendingRelayTraffic).toList
  unfold observeP2pClose closeEvents
  dsimp only
  split
  · exact htraffic.trans rfl
  · exact htraffic.trans (of_same rfl)

theorem notice (session : StoredSession) (target : SessionOwner) (code : RendezvousErrorCode) :
    Tells r (sendServerNotice r session target code) [] := by
  unfold sendServerNotice
  dsimp only
  split
  · next r' h =>
    simp only [routeTo, bind_eq_ok, require_eq_ok, pure_eq_ok, exists_const] at h
    obtain ⟨active, _, _, rfl⟩ := h
    exact trySend _ _
  · exact of_same rfl

theorem expireOne (session : StoredSession) : Tells r (c.expireOne now r session) (c.closeEvents session "expired" now) := by
  have hnotices := (close c now r session "expired").trans (notice session session.consumer .expired)
  rw [List.append_nil] at hnotices
  have htold := hnotices.trans (notice session session.provider .expired)
  rw [List.append_nil] at htold
  exact htold

theorem disconnectOne (identity : AuthenticatedClient) (session : StoredSession) :
    Tells r (c.disconnectOne identity now r session) (c.closeEvents session "peer-disconnected" now) := by
  have htold := (close c now r session "peer-disconnected").trans
    (notice session (if session.consumer.Matches identity then session.provider else session.consumer) .peerDisconnected)
  rw [List.append_nil] at htold
  exact htold

theorem foldl {α : Type} {f : ClientRegistry → α → ClientRegistry} {g : α → List ObservationEvent} (hf : ∀ r a, Tells r (f r a) (g a))
    (xs : List α) : Tells r (xs.foldl f r) (xs.flatMap g) := by
  induction xs generalizing r with
  | nil => exact of_same rfl
  | cons x xs ih =>
      rw [List.flatMap_cons]
      exact (hf r x).trans ih

end Tells

/-- A section that forwards nothing has nothing to publish. -/
theorem forwardEnvelope_notes (h : c.forwardEnvelope now token authenticated envelope s = some (result, s')) :
    let notes := (CriticalSection.forwardEnvelope now token authenticated envelope).notes c s
    (s' = s ∧ notes = []) ∨ ∃ plan permit, forwardPlan s now authenticated envelope = .ok plan ∧ reserveTo s.registry plan.target = .ok permit ∧
      notes = (forwardedEvents c now authenticated envelope plan).map (s.note envelope.sessionId) ∧
      sendGrant (forwardedSession c now authenticated envelope plan) (forwardedGrant c now token authenticated envelope plan)
        (s.forwardedBy c now authenticated envelope plan permit) = some (result, s') := by
  dsimp only
  rw [CriticalSection.notes]
  rcases Call.read_bind_cases h with ⟨e, hplan, hr⟩ | ⟨plan, hplan, hr⟩
  · obtain ⟨rfl, rfl⟩ := Prod.mk.inj hr
    rw [hplan]
    exact .inl ⟨rfl, rfl⟩
  rw [hplan]
  dsimp only
  rcases Call.read_bind_cases hr with ⟨e, hpermit, hr⟩ | ⟨permit, hpermit, hr⟩
  · obtain ⟨rfl, rfl⟩ := Prod.mk.inj hr
    rw [hpermit]
    exact .inl ⟨rfl, rfl⟩
  rw [hpermit]
  exact .inr ⟨plan, permit, rfl, hpermit, rfl, hr⟩

/-- A section that closes nothing has nothing to publish. -/
theorem closeSession_notes (h : c.closeSession now authenticated envelope s = some (result, s')) :
    let notes := (CriticalSection.closeSession now authenticated envelope).notes c s
    (s' = s ∧ notes = []) ∨ ∃ plan permit, closePlan s now authenticated envelope = .ok plan ∧ reserveTo s.registry plan.target = .ok permit ∧
      notes = (c.closeEvents plan.session "closed" now).map (s.note envelope.sessionId) ∧
      s' = { s.closedBy authenticated envelope plan permit now with
        registry := (observeP2pClose c s.registry { plan.session with state := plan.next } "closed" now).trySend permit.identity.name plan.message } := by
  dsimp only
  rw [CriticalSection.notes]
  rcases Call.read_bind_cases h with ⟨e, hplan, hr⟩ | ⟨plan, hplan, hr⟩
  · obtain ⟨rfl, rfl⟩ := Prod.mk.inj hr
    rw [hplan]
    exact .inl ⟨rfl, rfl⟩
  rw [hplan]
  dsimp only
  rcases Call.read_bind_cases hr with ⟨e, hpermit, hr⟩ | ⟨permit, hpermit, hr⟩
  · obtain ⟨rfl, rfl⟩ := Prod.mk.inj hr
    rw [hpermit]
    exact .inl ⟨rfl, rfl⟩
  rw [hpermit]
  obtain ⟨_, rfl⟩ := Prod.mk.inj (Option.some.inj hr)
  refine .inr ⟨plan, permit, rfl, hpermit, rfl, ?_⟩
  have hremoved : ((s.state.putSession envelope.sessionId { plan.session with state := plan.next }).tombstoneSession envelope.sessionId).2 =
      some { plan.session with state := plan.next } := by
    simp only [tombstoneSession, putSession, Finmap.lookup_insert]
  simp only [hremoved, Option.elim_some]
  rfl

theorem map_event_note (id : SessionId) (events : List ObservationEvent) : (events.map (s.note id)).map Note.event = events := by
  rw [List.map_map]
  exact List.map_id events

theorem map_event_flatMap {α : Type} (xs : List α) (f : α → List ObservationEvent) (id : α → SessionId) :
    (xs.flatMap fun x => (f x).map (s.note (id x))).map Note.event = xs.flatMap f := by
  rw [List.map_flatMap]
  exact List.flatMap_congr fun x _ => map_event_note (id x) (f x)

theorem activeSession_put_ne {state : CoordinatorState} {id other : SessionId} {session : StoredSession} (h : id ≠ other) :
    (state.putSession other session).activeSession id = state.activeSession id := by
  rw [activeSession, putSession, Finmap.lookup_insert_of_ne _ h, activeSession]

/-- Each session is flushed as it was before the loop. -/
theorem flushLoop_events {order : List SessionId} (h : order.Nodup) (state : CoordinatorState) : (c.flushLoop now order state).1 =
    order.flatMap fun id => (state.activeSession id).elim [] fun session => (c.flushSession now session).2 := by
  induction order generalizing state with
  | nil => rfl
  | cons id order ih =>
      obtain ⟨hnew, hnodup⟩ := List.nodup_cons.mp h
      rw [flushLoop, List.flatMap_cons]
      cases hactive : state.activeSession id with
      | none => exact ih hnodup state
      | some session =>
          refine congrArg ((c.flushSession now session).2 ++ ·) ((ih hnodup _).trans (List.flatMap_congr fun other hother => ?_))
          have hne : other ≠ id := fun heq => hnew (heq ▸ hother)
          rw [activeSession_put_ne hne]

/-- The events of a section are those that the call publishes when it is made alone. -/
theorem notes_told {cs : CriticalSection} (hi : cs.Iterates s) (h : cs.enter c s = some (result, s')) :
    Tells s.registry s'.registry ((cs.notes c s).map Note.event) := by
  cases cs with
  | request now authenticated envelope =>
      rw [CriticalSection.enter, Call.bind_apply] at h
      obtain ⟨⟨r₁, t⟩, ht, h⟩ := Option.bind_eq_some_iff.mp h
      have htells : Tells s.registry t.registry [] := by
        rcases request_cases ht with ⟨_, _, rfl⟩ | ⟨plan, _, _, rfl⟩
        · exact .of_same rfl
        · exact .trySend _ _
      cases r₁ with
      | ok _ =>
          obtain ⟨_, rfl⟩ := Prod.mk.inj (Option.some.inj h)
          exact htells
      | error _ =>
          obtain ⟨_, rfl⟩ := Prod.mk.inj (Option.some.inj h)
          exact htells
  | providerDecision now authenticated envelope =>
      rcases providerDecision_cases h with ⟨_, _, rfl⟩ | ⟨plan, permit, _, _, _, rfl⟩
      · exact .of_same rfl
      · exact .trySend _ _
  | forwardEnvelope now token authenticated envelope =>
      rcases forwardEnvelope_notes h with ⟨rfl, hnotes⟩ | ⟨plan, permit, _, _, hnotes, hgrant⟩
      · rw [hnotes]
        exact .of_same rfl
      · rw [hnotes, map_event_note, ← List.append_nil (forwardedEvents _ _ _ _ _)]
        have hforwarded : Tells s.registry (s.forwardedBy c now authenticated envelope plan permit).registry
            (forwardedEvents c now authenticated envelope plan ++ []) := (Tells.all _ _).trans (.trySend _ _)
        rw [List.append_nil] at hforwarded
        refine hforwarded.trans ?_
        rcases sendGrant_cases hgrant with ⟨_, _, rfl⟩ | ⟨_, _, rfl, _⟩ | ⟨_, _, _, _, _, _, _, rfl⟩
        · exact .of_same rfl
        · exact .of_same rfl
        · exact (Tells.trySend _ _).trans (.trySend _ _)
  | closeSession now authenticated envelope =>
      rcases closeSession_notes h with ⟨rfl, hnotes⟩ | ⟨plan, permit, _, _, hnotes, rfl⟩
      · rw [hnotes]
        exact .of_same rfl
      · rw [hnotes, map_event_note, ← List.append_nil (c.closeEvents _ _ _)]
        have hclosed : Tells s.registry _ (c.closeEvents plan.session "closed" now) :=
          Tells.close c now s.registry { plan.session with state := plan.next } "closed"
        exact hclosed.trans (.trySend _ _)
  | expireSessionsBatch now =>
      obtain ⟨removed, state, hloop, _, rfl⟩ := expireSessionsBatch_cases h
      rw [CriticalSection.notes, hloop]
      dsimp only
      rw [map_event_flatMap]
      exact Tells.foldl (fun r session => .expireOne session) removed
  | relayFrame now authenticated frame =>
      rcases Call.read_bind_cases h with ⟨_, _, hr⟩ | ⟨session, _, hr⟩
      · obtain ⟨_, rfl⟩ := Prod.mk.inj hr
        exact .of_same rfl
      cases session with
      | none =>
          obtain ⟨_, rfl⟩ := Prod.mk.inj (Option.some.inj hr)
          exact .of_same rfl
      | some session =>
          rcases relayFrame_cases hr with ⟨_, _, rfl⟩ | ⟨_, _, rfl⟩ | ⟨_, permit, message, _, _, _, _, _, rfl⟩
          · exact .of_same rfl
          · exact .of_same rfl
          · exact .trySend _ _
  | flushObservabilityDue now order =>
      obtain ⟨_, rfl⟩ := Prod.mk.inj (Option.some.inj h)
      rw [CriticalSection.notes]
      dsimp only
      split
      · have hevents : (order.flatMap fun id => (s.state.activeSession id).elim [] fun session =>
            (c.flushSession now session).2.map (s.note id)).map Note.event = (c.flushLoop now order s.state).1 := by
          rw [List.map_flatMap, flushLoop_events hi.1]
          refine List.flatMap_congr fun id _ => ?_
          cases s.state.activeSession id with
          | none => rfl
          | some session => exact map_event_note id _
        rw [hevents]
        exact .all _ _
      · exact .of_same rfl
  | removeDevice now identity order =>
      obtain ⟨_, rfl⟩ := Prod.mk.inj (Option.some.inj h)
      have hevents := List.flatMap_map Prod.snd (fun session => c.closeEvents session "peer-disconnected" now) (removeLoop identity order s.state).1
      rw [CriticalSection.notes, map_event_flatMap, ← hevents]
      exact Tells.foldl (fun r session => .disconnectOne identity session) _

end Rustgo.Coordinator
