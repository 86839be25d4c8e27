import Rustgo.CoordinatorSteps
import Rustgo.Runs

namespace Rustgo.Coordinator

open Checks Protocol Registry Rendezvous Tables RendezvousCoordinator

/-- The elementary changes that the calls are made of. Where `timely` holds,
frames are relayed only before their session expires. -/
inductive Change (c : RendezvousCoordinator) (timely : Prop) : Server → Server → Prop
  | registry (s) (r : ClientRegistry) (h : s.registry.Consistent → r.Consistent) :
      Change c timely s { s with registry := r }
  | opened (s) {now authenticated envelope plan} (h : c.requestPlan s now authenticated envelope = .ok plan) :
      Change c timely s ({ s with state := openSession s.state (newSession s.registry now envelope plan) }.append
        (s.opens envelope authenticated plan.permit now))
  | decided (s) {now authenticated envelope plan permit} (h : decisionPlan s now authenticated envelope = .ok plan)
      (hp : reserveTo s.registry plan.session.consumer = .ok permit) :
      Change c timely s ((s.put envelope.sessionId (decidedSession plan)).append
        (s.passes envelope authenticated permit now))
  | forwarded (s) {now authenticated envelope plan permit} (h : forwardPlan s now authenticated envelope = .ok plan)
      (hp : reserveTo s.registry plan.target = .ok permit) :
      Change c timely s ((s.put envelope.sessionId (forwardedSession c now authenticated envelope plan)).append
        (s.passes envelope authenticated permit now))
  | closed (s) {now authenticated envelope plan permit} (h : closePlan s now authenticated envelope = .ok plan)
      (hp : reserveTo s.registry plan.target = .ok permit) :
      Change c timely s (s.closedBy authenticated envelope plan permit now)
  | entombed (s) {sessionId session} (h : s.state.activeSession sessionId = some session) :
      Change c timely s ((s.entomb sessionId).append (.tombstoned sessionId (s.incarnation sessionId)))
  | admitted (s) {session} (now frame) (h : s.state.activeSession frame.sessionId = some session) :
      Change c timely s (s.put frame.sessionId (admittedSession now frame session))
  | relayed (s) {now authenticated frame session target permit}
      (h : s.state.activeSession frame.sessionId = some session)
      (ht : relayTarget session authenticated frame = .ok target)
      (ha : (session.relay.admitFrame now frame.ciphertext.bytes.length).1 = true)
      (hp : reserveTo s.registry target = .ok permit)
      (hl : timely → now.unixSecs < session.metadata.expiresUnixSecs) :
      Change c timely s ((s.put frame.sessionId (relayedSession s.registry now authenticated frame session)).append
        (s.relays now authenticated frame session permit))
  | flushed (s) {sessionId session} (now) (h : s.state.activeSession sessionId = some session) :
      Change c timely s (s.put sessionId (c.flushSession now session).1)
  | discarded (s) {next} (h : s.state.expiry.peek = some next)
      (hr : ∀ record, s.state.sessions.lookup next.sessionId = some record →
        record.expiresUnixSecs ≠ next.expiresUnixSecs) :
      Change c timely s { s with state := { s.state with expiry := s.state.expiry.pop } }
  | purged (s) {next record deviceCounts} (h : s.state.expiry.peek = some next)
      (hr : s.state.sessions.lookup next.sessionId = some record)
      (he : record.expiresUnixSecs = next.expiresUnixSecs)
      (hd : CoordinatorState.decrementRecordCounts s.state.deviceCounts record = some deviceCounts) :
      Change c timely s { s with state := ⟨s.state.sessions.erase next.sessionId, deviceCounts, s.state.expiry.pop⟩ }

abbrev Changes (c : RendezvousCoordinator) (timely : Prop) := Relation.ReflTransGen (Change c timely)

variable {c : RendezvousCoordinator} {timely : Prop} {s s' t : Server} {now : Moment}
  {authenticated : ControlSessionGuard} {envelope : RendezvousEnvelope} {frame : PeerRelayFrame}
  {token : Vector UInt8 32} {r : ClientRegistry}

theorem Changes.invariant {P : Server → Prop} (hstep : ∀ s s', P s → Change c timely s s' → P s')
    (h : Changes c timely s s') (hs : P s) : P s' := by
  induction h with
  | refl => exact hs
  | tail _ hl ih => exact hstep _ _ ih hl

theorem activeSession_eq_some {state : CoordinatorState} {sessionId : SessionId} {session : StoredSession} :
    state.activeSession sessionId = some session ↔ state.sessions.lookup sessionId = some (.active session) := by
  rw [CoordinatorState.activeSession]
  cases h : state.sessions.lookup sessionId with
  | none => simp
  | some record => cases record <;> simp [SessionRecord.active?]

section Registry

theorem routeTo_consistent {owner : SessionOwner} {message : Message} {r' : ClientRegistry}
    (h : routeTo r owner message = .ok r') (hc : r.Consistent) : r'.Consistent := by
  simp only [routeTo, bind_eq_ok, require_eq_ok, pure_eq_ok, exists_const] at h
  obtain ⟨active, _, _, rfl⟩ := h
  exact hc.trySend _ _

theorem sendServerNotice_consistent (session : StoredSession) (target : SessionOwner) (code : RendezvousErrorCode)
    (hc : r.Consistent) : (sendServerNotice r session target code).Consistent := by
  unfold sendServerNotice
  dsimp only
  split
  · next h => exact routeTo_consistent h hc
  · exact hc

theorem tryObserveAll_consistent (events : List ObservationEvent) (hc : r.Consistent) :
    (tryObserveAll r events).Consistent := by
  induction events generalizing r with
  | nil => exact hc
  | cons event events ih => exact ih (hc.tryObserve event)

theorem byName_tryObserveAll (events : List ObservationEvent) : (tryObserveAll r events).byName = r.byName := by
  induction events generalizing r with
  | nil => rfl
  | cons event events ih => exact ih

theorem byName_observeP2pClose (session : StoredSession) (reason : String) :
    (observeP2pClose c r session reason now).byName = r.byName := by
  unfold observeP2pClose
  dsimp only
  split
  · exact byName_tryObserveAll _
  · exact byName_tryObserveAll _

theorem observeP2pClose_consistent (session : StoredSession) (reason : String) (hc : r.Consistent) :
    (observeP2pClose c r session reason now).Consistent := by
  unfold observeP2pClose
  dsimp only
  split
  · exact (tryObserveAll_consistent _ hc).tryObserve _
  · exact tryObserveAll_consistent _ hc

theorem expireOne_consistent (session : StoredSession) (hc : r.Consistent) :
    (c.expireOne now r session).Consistent :=
  sendServerNotice_consistent _ _ _ (sendServerNotice_consistent _ _ _ (observeP2pClose_consistent _ _ hc))

theorem disconnectOne_consistent (identity : AuthenticatedClient) (session : StoredSession) (hc : r.Consistent) :
    (c.disconnectOne identity now r session).Consistent :=
  sendServerNotice_consistent _ _ _ (observeP2pClose_consistent _ _ hc)

theorem foldl_consistent {f : ClientRegistry → StoredSession → ClientRegistry}
    (hf : ∀ r session, r.Consistent → (f r session).Consistent) (sessions : List StoredSession) (hc : r.Consistent) :
    (sessions.foldl f r).Consistent := by
  induction sessions generalizing r with
  | nil => exact hc
  | cons session sessions ih => exact ih (hf r session hc)

end Registry

theorem Changes.registry (h : Changes c timely s t) (hr : t.registry.Consistent → r.Consistent) :
    Changes c timely s { t with registry := r } := h.tail (.registry t r hr)

theorem request_changes {result : Except RendezvousErrorCode SessionId}
    (h : c.request now authenticated envelope s = some (result, s')) : Changes c timely s s' := by
  rcases request_cases h with ⟨_, _, rfl⟩ | ⟨plan, hplan, _, rfl⟩
  · exact .refl
  · exact Changes.registry (.single (.opened s hplan)) fun hc => hc.trySend _ _

theorem providerDecision_changes {result : Except RendezvousErrorCode Unit}
    (h : providerDecision now authenticated envelope s = some (result, s')) : Changes c timely s s' := by
  rcases providerDecision_cases h with ⟨_, _, rfl⟩ | ⟨plan, permit, hplan, hpermit, _, rfl⟩
  · exact .refl
  have hdecided : Changes c timely s ((s.put envelope.sessionId (decidedSession plan)).append
      (s.passes envelope authenticated permit now)) := .single (.decided s hplan hpermit)
  split
  · exact Changes.registry hdecided fun hc => hc.trySend _ _
  · have hactive : ((s.put envelope.sessionId (decidedSession plan)).append
        (s.passes envelope authenticated permit now)).state.activeSession envelope.sessionId =
        some (decidedSession plan) := activeSession_eq_some.mpr (Finmap.lookup_insert _)
    exact Changes.registry (hdecided.tail (.entombed _ hactive)) fun hc => hc.trySend _ _

theorem sendGrant_changes {session : StoredSession} {grant : Option PunchGrant}
    {result : Except RendezvousErrorCode Unit} (h : sendGrant session grant s = some (result, s')) :
    Changes c timely s s' := by
  rcases sendGrant_cases h with ⟨_, _, rfl⟩ | ⟨_, _, rfl, _⟩ | ⟨g, p, q, _, _, _, _, rfl⟩
  · exact .refl
  · exact .refl
  · exact Changes.registry .refl fun hc => (hc.trySend _ _).trySend _ _

theorem forwardEnvelope_changes {result : Except RendezvousErrorCode Unit}
    (h : c.forwardEnvelope now token authenticated envelope s = some (result, s')) : Changes c timely s s' := by
  rcases forwardEnvelope_cases h with ⟨_, _, rfl⟩ | ⟨plan, permit, hplan, hpermit, hgrant⟩
  · exact .refl
  have hforwarded : Changes c timely s (s.forwardedBy c now authenticated envelope plan permit) :=
    Changes.registry (.single (.forwarded s hplan hpermit)) fun hc => (tryObserveAll_consistent _ hc).trySend _ _
  exact hforwarded.trans (sendGrant_changes hgrant)

theorem closeSession_changes {result : Except RendezvousErrorCode Unit}
    (h : c.closeSession now authenticated envelope s = some (result, s')) : Changes c timely s s' := by
  rcases closeSession_cases h with ⟨_, _, rfl⟩ | ⟨plan, permit, hplan, hpermit, _, rfl⟩
  · exact .refl
  refine Changes.registry (.single (.closed s hplan hpermit)) ?_
  intro hc
  apply ClientRegistry.Consistent.trySend
  cases (CoordinatorState.tombstoneSession _ envelope.sessionId).2 with
  | none => exact hc
  | some session => exact observeP2pClose_consistent _ _ hc

theorem expireLoop_changes {n : Nat} {removed : List StoredSession} {state : CoordinatorState} {bound : UInt64}
    (h : s.state.expireLoop bound n = some (removed, state)) : Changes c timely s { s with state } := by
  induction n generalizing s removed with
  | zero =>
      obtain ⟨_, rfl⟩ := Prod.mk.inj (Option.some.inj h)
      exact .refl
  | succ n ih =>
      rw [CoordinatorState.expireLoop] at h
      split at h
      · obtain ⟨_, rfl⟩ := Prod.mk.inj (Option.some.inj h)
        exact .refl
      · next next hpeek =>
        split at h
        · obtain ⟨_, rfl⟩ := Prod.mk.inj (Option.some.inj h)
          exact .refl
        · dsimp only at h
          split at h
          · next hnone =>
            refine Relation.ReflTransGen.head (Change.discarded s hpeek ?_)
              (ih (s := { s with state := { s.state with expiry := s.state.expiry.pop } }) h)
            intro record hr
            rw [hnone] at hr
            exact nomatch hr
          · next record hrecord =>
            split at h
            · next hexp =>
              obtain ⟨counts, hcounts, h⟩ := Option.bind_eq_some_iff.mp h
              obtain ⟨⟨removed', state'⟩, hrest, h⟩ := Option.bind_eq_some_iff.mp h
              obtain ⟨_, rfl⟩ := Prod.mk.inj (Option.some.inj h)
              exact Relation.ReflTransGen.head (Change.purged s hpeek hrecord hexp hcounts)
                (ih (s := { s with
                  state := ⟨s.state.sessions.erase next.sessionId, counts, s.state.expiry.pop⟩ }) hrest)
            · next hexp =>
              refine Relation.ReflTransGen.head (Change.discarded s hpeek ?_)
                (ih (s := { s with state := { s.state with expiry := s.state.expiry.pop } }) h)
              intro record' hr
              obtain rfl := Option.some.inj (hrecord.symm.trans hr)
              exact hexp

theorem expireSessionsBatch_changes {result : Except RendezvousErrorCode Unit}
    (h : c.expireSessionsBatch now s = some (result, s')) : Changes c timely s s' := by
  obtain ⟨removed, state, hloop, _, rfl⟩ := expireSessionsBatch_cases h
  exact Changes.registry (expireLoop_changes hloop) fun hc =>
    foldl_consistent (fun _ session => expireOne_consistent session) removed hc

theorem forwardRelayFrame_changes {result : Except RendezvousErrorCode Unit}
    (h : c.forwardRelayFrame now authenticated frame s = some (result, s'))
    (hl : ∀ t session, c.expireSessionsBatch now s = some (.ok (), t) →
      t.state.activeSession frame.sessionId = some session → timely →
        now.unixSecs < session.metadata.expiresUnixSecs) : Changes c timely s s' := by
  rcases forwardRelayFrame_cases h with ⟨_, _, rfl⟩ | ⟨t, hbatch, h⟩
  · exact .refl
  refine (expireSessionsBatch_changes hbatch).trans ?_
  rcases h with ⟨_, _, rfl⟩ | ⟨_, rfl⟩ | ⟨session, hlookup, h⟩
  · exact .refl
  · exact .refl
  have hactive := activeSession_eq_some.mpr hlookup
  rcases relayFrame_cases h with ⟨_, _, rfl⟩ | ⟨_, _, rfl⟩ | ⟨target, permit, message, ht, ha, _, hp, _, rfl⟩
  · exact .refl
  · exact .single (.admitted t now frame hactive)
  · exact Changes.registry (.single (.relayed t hactive ht ha hp (hl t session hbatch hactive)))
      fun hc => hc.trySend _ _

theorem flushLoop_changes (order : List SessionId) :
    Changes c timely s { s with state := (c.flushLoop now order s.state).2 } := by
  induction order generalizing s with
  | nil => exact .refl
  | cons sessionId order ih =>
      rw [flushLoop]
      split
      · exact ih
      · next session hactive =>
        exact Relation.ReflTransGen.head (Change.flushed s now hactive)
          (ih (s := s.put sessionId (c.flushSession now session).1))

theorem expireNow_changes {order : List SessionId} {result : Except RendezvousErrorCode Unit}
    (h : c.expireNow now order s = some (result, s')) : Changes c timely s s' := by
  rw [expireNow, Call.bind_apply] at h
  obtain ⟨⟨r₁, t⟩, ht, h⟩ := Option.bind_eq_some_iff.mp h
  obtain ⟨_, _, _, rfl, _⟩ := expireSessionsBatch_cases ht
  refine (expireSessionsBatch_changes ht).trans ?_
  obtain ⟨_, rfl⟩ := Prod.mk.inj (Option.some.inj h)
  dsimp only
  split
  · exact Changes.registry (flushLoop_changes order) fun hc => tryObserveAll_consistent _ hc
  · exact .refl

theorem incarnation_tombstoned {sessionId other : SessionId} {k : Nat} :
    (s.append (.tombstoned sessionId k)).incarnation other = s.incarnation other := by
  simp only [Server.append, Server.incarnation, List.countP_append, List.countP_singleton]
  exact congrArg _ (if_neg (by rw [decide_eq_true_eq]; exact id))

theorem removeLoop_changes (identity : AuthenticatedClient) (order : List SessionId) :
    Changes c timely s { s with
      state := (removeLoop identity order s.state).2
      history := s.history ++ (removeLoop identity order s.state).1.map fun p =>
        .tombstoned p.1 (s.incarnation p.1) } := by
  induction order generalizing s with
  | nil => simpa [removeLoop] using Relation.ReflTransGen.refl
  | cons sessionId order ih =>
      rw [removeLoop]
      split
      · exact ih
      · next session hactive =>
        split
        · have hrest := ih (s := (s.entomb sessionId).append (.tombstoned sessionId (s.incarnation sessionId)))
          simp only [incarnation_tombstoned] at hrest
          refine Relation.ReflTransGen.head (Change.entombed s hactive) ?_
          simpa [Server.entomb, Server.append, Server.incarnation] using hrest
        · exact ih

theorem removeDevice_changes {identity : AuthenticatedClient} {order : List SessionId}
    {result : Except RendezvousErrorCode Unit} (h : c.removeDevice now identity order s = some (result, s')) :
    Changes c timely s s' := by
  obtain ⟨_, rfl⟩ := Prod.mk.inj (Option.some.inj h)
  exact Changes.registry (removeLoop_changes identity order) fun hc =>
    foldl_consistent (fun _ session => disconnectOne_consistent identity session) _ hc

end Rustgo.Coordinator
