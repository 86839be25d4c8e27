import Rustgo.CallPairs
import Rustgo.CoordinatorCalls
import Rustgo.CoordinatorUpkeep

namespace Rustgo.Coordinator

open Call Checks Protocol Registry Rendezvous Tables RendezvousCoordinator

/-- What a session holds for the sink alone. -/
structure Watch where
  observedPath : Option SessionPath
  fallbackConsumerInternalFramesRemaining : Nat
  fallbackProviderInternalFramesRemaining : Nat
  pendingPreselectionRelayTraffic : TrafficCounters
  pendingRelayTraffic : TrafficCounters
  lastObservabilityFlush : Nat

def StoredSession.watched (session : StoredSession) (w : Watch) : StoredSession :=
  { session with
    observedPath := w.observedPath
    fallbackConsumerInternalFramesRemaining := w.fallbackConsumerInternalFramesRemaining
    fallbackProviderInternalFramesRemaining := w.fallbackProviderInternalFramesRemaining
    pendingPreselectionRelayTraffic := w.pendingPreselectionRelayTraffic
    pendingRelayTraffic := w.pendingRelayTraffic
    lastObservabilityFlush := w.lastObservabilityFlush }

def Like (session session' : StoredSession) : Prop := ∃ w, session' = session.watched w

inductive RecordLike : SessionRecord → SessionRecord → Prop
  | active {session session'} (h : Like session session') : RecordLike (.active session) (.active session')
  | tombstone (t) : RecordLike (.tombstone t) (.tombstone t)

/-- The second registry has a sink, or none either. -/
structure RegistryLike (r r' : ClientRegistry) : Prop where
  plain : r.observability = none
  eq : r' = { r with observability := r'.observability }

structure StateLike (s s' : CoordinatorState) : Prop where
  sessions : ∀ id, Option.Rel RecordLike (s.sessions.lookup id) (s'.sessions.lookup id)
  deviceCounts : s'.deviceCounts = s.deviceCounts
  expiry : s'.expiry = s.expiry

/-- Two servers of which only the second may have a sink, and which agree on the
rest. -/
structure Alike (s t : Server) : Prop where
  registry : RegistryLike s.registry t.registry
  state : StateLike s.state t.state
  history : t.history = s.history

variable {c : RendezvousCoordinator} {s t : Server} {r r' : ClientRegistry} {session session' : StoredSession}
  {a b : CoordinatorState} {now : Moment} {authenticated : ControlSessionGuard} {envelope : RendezvousEnvelope}
  {id : SessionId}

theorem Like.refl (session : StoredSession) : Like session session :=
  ⟨⟨session.observedPath, session.fallbackConsumerInternalFramesRemaining, session.fallbackProviderInternalFramesRemaining,
    session.pendingPreselectionRelayTraffic, session.pendingRelayTraffic, session.lastObservabilityFlush⟩, rfl⟩

theorem Like.trans {session'' : StoredSession} (h : Like session session') (h' : Like session' session'') :
    Like session session'' := by
  obtain ⟨w, rfl⟩ := h
  obtain ⟨w', rfl⟩ := h'
  exact ⟨w', rfl⟩

namespace RegistryLike

theorem of_eq (h : r.observability = none) {events : Option (List ObservationEvent)} (heq : r' = { r with observability := events }) :
    RegistryLike r r' := by
  subst heq
  exact ⟨h, rfl⟩

theorem refl (h : r.observability = none) : RegistryLike r r := ⟨h, rfl⟩

theorem mapRuntime (h : RegistryLike r r') (name : DeviceName) (f : SessionRuntime → SessionRuntime) :
    RegistryLike (r.mapRuntime name f) (r'.mapRuntime name f) := by
  obtain ⟨hplain, heq⟩ := h
  rw [heq, ClientRegistry.mapRuntime, ClientRegistry.mapRuntime]
  dsimp only
  split
  · exact ⟨hplain, rfl⟩
  · exact ⟨hplain, rfl⟩

theorem trySend (h : RegistryLike r r') (name : DeviceName) (message : Message) :
    RegistryLike (r.trySend name message) (r'.trySend name message) := h.mapRuntime name _

/-- What is told to the second sink does not matter. -/
theorem tryObserve (h : RegistryLike r r') (event event' : ObservationEvent) :
    RegistryLike (r.tryObserve event) (r'.tryObserve event') := by
  obtain ⟨hplain, heq⟩ := h
  refine ⟨?_, ?_⟩
  · rw [ClientRegistry.tryObserve, hplain]
    rfl
  · rw [heq]
    rfl

theorem tryObserve_right (h : RegistryLike r r') (event : ObservationEvent) : RegistryLike r (r'.tryObserve event) := by
  obtain ⟨hplain, heq⟩ := h
  refine ⟨hplain, ?_⟩
  rw [heq]
  rfl

theorem tryObserveAll_right (h : RegistryLike r r') (events : List ObservationEvent) : RegistryLike r (tryObserveAll r' events) := by
  induction events generalizing r' with
  | nil => exact h
  | cons event events ih => exact ih (h.tryObserve_right event)

theorem tryObserve_plain (h : r.observability = none) (event : ObservationEvent) : r.tryObserve event = r := by
  obtain ⟨active, byName, next, observability, maxClients⟩ := r
  obtain rfl : observability = none := h
  rfl

theorem tryObserveAll_plain (h : r.observability = none) (events : List ObservationEvent) : tryObserveAll r events = r := by
  induction events with
  | nil => rfl
  | cons event events ih =>
      rw [tryObserveAll, List.foldl_cons, tryObserve_plain h]
      exact ih

theorem observeAll (h : RegistryLike r r') (events events' : List ObservationEvent) :
    RegistryLike (tryObserveAll r events) (tryObserveAll r' events') := by
  rw [tryObserveAll_plain h.plain]
  exact h.tryObserveAll_right events'

theorem markUnavailable (h : RegistryLike r r') (guard : ControlSessionGuard) :
    RegistryLike (r.markUnavailable guard) (r'.markUnavailable guard) := h.mapRuntime _ _

theorem release (h : RegistryLike r r') (identity : AuthenticatedClient) : RegistryLike (r.release identity) (r'.release identity) := by
  obtain ⟨hplain, heq⟩ := h
  rw [heq, ClientRegistry.release, ClientRegistry.release]
  dsimp only
  split
  · exact ⟨hplain, rfl⟩
  · exact ⟨hplain, rfl⟩

theorem finalizeDisconnect (h : RegistryLike r r') (guard : ControlSessionGuard) (nowUnixMillis : UInt64) :
    RegistryLike (r.finalizeDisconnect guard nowUnixMillis) (r'.finalizeDisconnect guard nowUnixMillis) :=
  (h.release guard.identity).tryObserve _ _

theorem observeClose (h : RegistryLike r r') (session session' : StoredSession) (reason : String) (now : Moment) :
    RegistryLike (observeP2pClose c r session reason now) (observeP2pClose c r' session' reason now) := by
  have hall := h.observeAll (p2pTrafficEvent c session session.pendingRelayTraffic).toList
    (p2pTrafficEvent c session' session'.pendingRelayTraffic).toList
  rw [observeP2pClose, observeP2pClose]
  split
  · rw [tryObserve_plain hall.plain]
    split
    · exact hall.tryObserve_right _
    · exact hall
  · split
    · exact hall.tryObserve_right _
    · exact hall

theorem reserveTo_eq (h : RegistryLike r r') (owner : SessionOwner) : reserveTo r' owner = reserveTo r owner := by
  rw [h.eq]
  rfl

theorem routeTo (h : RegistryLike r r') (owner : SessionOwner) (message : Message) :
    Matches RegistryLike (routeTo r owner message) (Coordinator.routeTo r' owner message) := by
  have hroute : activeRoute r' owner = activeRoute r owner := by
    rw [h.eq]
    rfl
  rw [Coordinator.routeTo, Coordinator.routeTo, hroute]
  refine .andThen fun active _ => .andThen fun _ _ => .ok ?_
  exact h.trySend _ message

theorem notice (h : RegistryLike r r') (hsession : Like session session') (target : SessionOwner) (code : RendezvousErrorCode) :
    RegistryLike (sendServerNotice r session target code) (sendServerNotice r' session' target code) := by
  obtain ⟨w, rfl⟩ := hsession
  have hwatch : sendServerNotice r' (session.watched w) target code = sendServerNotice r' session target code := rfl
  have hroute := h.routeTo target (serverNotice session.metadata.sessionId code
    (some (if session.consumer = target then session.provider.name else session.consumer.name)))
  rw [hwatch, sendServerNotice, sendServerNotice]
  generalize Coordinator.routeTo r target _ = x at hroute ⊢
  generalize Coordinator.routeTo r' target _ = y at hroute ⊢
  cases hroute with
  | ok hok => exact hok
  | error e => exact h

end RegistryLike

theorem RecordLike.active? {x y : SessionRecord} (h : RecordLike x y) : Option.Rel Like x.active? y.active? := by
  cases h with
  | active hlike => exact .some hlike
  | tombstone t => exact .none

theorem RecordLike.active?_toList {x y : SessionRecord} (h : RecordLike x y) :
    List.Forall₂ Like x.active?.toList y.active?.toList := by
  cases h with
  | active hlike => exact .cons hlike .nil
  | tombstone t => exact .nil

theorem RecordLike.devices {x y : SessionRecord} (h : RecordLike x y) : y.devices = x.devices := by
  cases h with
  | active hlike =>
      obtain ⟨w, rfl⟩ := hlike
      rfl
  | tombstone t => rfl

theorem RecordLike.expiresUnixSecs {x y : SessionRecord} (h : RecordLike x y) : y.expiresUnixSecs = x.expiresUnixSecs := by
  cases h with
  | active hlike =>
      obtain ⟨w, rfl⟩ := hlike
      rfl
  | tombstone t => rfl

namespace StateLike

theorem refl (a : CoordinatorState) : StateLike a a := by
  refine ⟨fun id => ?_, rfl, rfl⟩
  cases h : a.sessions.lookup id with
  | none => exact .none
  | some record =>
      refine .some ?_
      cases record with
      | active session => exact .active (.refl session)
      | tombstone t => exact .tombstone t

theorem activeSession (h : StateLike a b) (id : SessionId) : Option.Rel Like (a.activeSession id) (b.activeSession id) := by
  have hid := h.sessions id
  rw [CoordinatorState.activeSession, CoordinatorState.activeSession]
  generalize a.sessions.lookup id = x at hid
  generalize b.sessions.lookup id = y at hid
  cases hid with
  | none => exact .none
  | some hrecord => exact hrecord.active?

theorem insert (h : StateLike a b) {x y : SessionRecord} (hxy : RecordLike x y) (id : SessionId) :
    StateLike { a with sessions := a.sessions.insert id x } { b with sessions := b.sessions.insert id y } := by
  refine ⟨fun other => ?_, h.deviceCounts, h.expiry⟩
  by_cases hid : other = id
  · subst hid
    dsimp only
    rw [Finmap.lookup_insert, Finmap.lookup_insert]
    exact .some hxy
  · dsimp only
    rw [Finmap.lookup_insert_of_ne _ hid, Finmap.lookup_insert_of_ne _ hid]
    exact h.sessions other

theorem putSession (h : StateLike a b) (hlike : Like session session') (id : SessionId) :
    StateLike (a.putSession id session) (b.putSession id session') := h.insert (.active hlike) id

/-- A session that only the second server writes again. -/
theorem putSession_right (h : StateLike a b) (hactive : a.activeSession id = some session) (hlike : Like session session') :
    StateLike a (b.putSession id session') := by
  refine ⟨fun other => ?_, h.deviceCounts, h.expiry⟩
  by_cases hid : other = id
  · subst hid
    obtain ⟨record, hrecord, hsession⟩ := Option.bind_eq_some_iff.mp hactive
    cases record with
    | active own =>
        obtain rfl := Option.some.inj hsession
        rw [CoordinatorState.putSession, hrecord]
        dsimp only
        rw [Finmap.lookup_insert]
        exact .some (.active hlike)
    | tombstone t => cases hsession
  · rw [CoordinatorState.putSession]
    dsimp only
    rw [Finmap.lookup_insert_of_ne _ hid]
    exact h.sessions other

theorem tombstoneSession (h : StateLike a b) (id : SessionId) :
    StateLike (a.tombstoneSession id).1 (b.tombstoneSession id).1 ∧
      Option.Rel Like (a.tombstoneSession id).2 (b.tombstoneSession id).2 := by
  have hid := h.sessions id
  rw [CoordinatorState.tombstoneSession, CoordinatorState.tombstoneSession]
  generalize a.sessions.lookup id = x at hid
  generalize b.sessions.lookup id = y at hid
  cases hid with
  | none => exact ⟨h, .none⟩
  | some hrecord =>
      cases hrecord with
      | active hlike =>
          refine ⟨?_, .some hlike⟩
          obtain ⟨w, rfl⟩ := hlike
          exact h.insert (.tombstone _) id
      | tombstone t => exact ⟨h, .none⟩

theorem erase (h : StateLike a b) (id : SessionId) (counts : Table DeviceName Nat) :
    StateLike { a with sessions := a.sessions.erase id, deviceCounts := counts }
      { b with sessions := b.sessions.erase id, deviceCounts := counts } := by
  refine ⟨fun other => ?_, rfl, h.expiry⟩
  by_cases hid : other = id
  · subst hid
    dsimp only
    rw [Finmap.lookup_erase, Finmap.lookup_erase]
    exact .none
  · dsimp only
    rw [Finmap.lookup_erase_ne hid, Finmap.lookup_erase_ne hid]
    exact h.sessions other

theorem expireLoop (h : StateLike a b) (nowSecs : UInt64) (n : Nat) :
    Option.Rel (fun p q => List.Forall₂ Like p.1 q.1 ∧ StateLike p.2 q.2) (a.expireLoop nowSecs n) (b.expireLoop nowSecs n) := by
  induction n generalizing a b with
  | zero => exact .some ⟨.nil, h⟩
  | succ n ih =>
      obtain ⟨sessions, counts, expiry⟩ := b
      obtain ⟨hsessions, rfl, rfl⟩ := h
      rw [CoordinatorState.expireLoop, CoordinatorState.expireLoop]
      dsimp only
      cases a.expiry.peek with
      | none => exact .some ⟨.nil, ⟨hsessions, rfl, rfl⟩⟩
      | some next =>
          have hpop : StateLike { a with expiry := a.expiry.pop } ⟨sessions, a.deviceCounts, a.expiry.pop⟩ := ⟨hsessions, rfl, rfl⟩
          have hid := hsessions next.sessionId
          dsimp only at hid ⊢
          split
          · exact .some ⟨.nil, ⟨hsessions, rfl, rfl⟩⟩
          · generalize a.sessions.lookup next.sessionId = x at hid ⊢
            generalize sessions.lookup next.sessionId = y at hid ⊢
            cases hid with
            | none => exact ih hpop
            | @some x y hrecord =>
                have hcounts : CoordinatorState.decrementRecordCounts a.deviceCounts y =
                    CoordinatorState.decrementRecordCounts a.deviceCounts x := by
                  rw [CoordinatorState.decrementRecordCounts, CoordinatorState.decrementRecordCounts, hrecord.devices]
                dsimp only
                rw [hrecord.expiresUnixSecs, hcounts]
                split
                · cases CoordinatorState.decrementRecordCounts a.deviceCounts x with
                  | none => exact .none
                  | some counts =>
                      simp only [Option.bind_eq_bind, Option.bind_some]
                      refine rel_bind (ih (hpop.erase next.sessionId counts)) ?_
                      rintro ⟨removed, state⟩ ⟨removed', state'⟩ ⟨hremoved, hstate⟩
                      exact .some ⟨List.rel_append hrecord.active?_toList hremoved, hstate⟩
                · exact ih hpop

theorem removeLoop (h : StateLike a b) (identity : AuthenticatedClient) (order : List SessionId) :
    List.Forall₂ (fun p q => q.1 = p.1 ∧ Like p.2 q.2) (removeLoop identity order a).1 (removeLoop identity order b).1 ∧
      StateLike (removeLoop identity order a).2 (removeLoop identity order b).2 := by
  induction order generalizing a b with
  | nil => exact ⟨.nil, h⟩
  | cons id order ih =>
      have hid := h.activeSession id
      rw [RendezvousCoordinator.removeLoop, RendezvousCoordinator.removeLoop]
      generalize a.activeSession id = x at hid ⊢
      generalize b.activeSession id = y at hid ⊢
      cases hid with
      | none => exact ih h
      | @some session _ hlike =>
          obtain ⟨w, rfl⟩ := hlike
          have howns : Owns identity (session.watched w) ↔ Owns identity session := .rfl
          simp only [howns]
          split
          · obtain ⟨hremoved, hstate⟩ := ih (h.tombstoneSession id).1
            exact ⟨.cons ⟨rfl, w, rfl⟩ hremoved, hstate⟩
          · exact ih h

theorem flushLoop (h : StateLike a b) (now : Moment) (order : List SessionId) : StateLike a (c.flushLoop now order b).2 := by
  induction order generalizing b with
  | nil => exact h
  | cons id order ih =>
      have hid := h.activeSession id
      rw [RendezvousCoordinator.flushLoop]
      generalize hx : a.activeSession id = x at hid
      generalize b.activeSession id = y at hid ⊢
      cases hid with
      | none => exact ih h
      | some hlike =>
          refine ih (h.putSession_right hx (hlike.trans ?_))
          rw [flushSession]
          split
          · exact ⟨⟨_, _, _, _, _, _⟩, rfl⟩
          · exact .refl _

theorem openSession (h : StateLike a b) (hlike : Like session session') :
    StateLike (openSession a session) (RendezvousCoordinator.openSession b session') := by
  obtain ⟨sessions, counts, expiry⟩ := b
  obtain ⟨hsessions, rfl, rfl⟩ := h
  obtain ⟨w, rfl⟩ := hlike
  have hstate : StateLike a ⟨sessions, a.deviceCounts, a.expiry⟩ := ⟨hsessions, rfl, rfl⟩
  exact ⟨(hstate.insert (.active ⟨w, rfl⟩) session.metadata.sessionId).sessions, rfl, rfl⟩

theorem mem_iff (h : StateLike a b) (id : SessionId) : id ∈ b.sessions ↔ id ∈ a.sessions := by
  have hid := h.sessions id
  rw [← Finmap.lookup_isSome, ← Finmap.lookup_isSome]
  generalize a.sessions.lookup id = x at hid ⊢
  generalize b.sessions.lookup id = y at hid ⊢
  cases hid with
  | none => rfl
  | some hrecord => rfl

theorem len_eq (h : StateLike a b) : len b.sessions = len a.sessions := by
  have hkeys : b.sessions.keys = a.sessions.keys := by
    ext id
    rw [Finmap.mem_keys, Finmap.mem_keys, h.mem_iff id]
  have hcard (m : Table SessionId SessionRecord) : len m = m.keys.card := (Multiset.card_map _ _).symm
  rw [hcard, hcard, hkeys]

end StateLike

end Rustgo.Coordinator
