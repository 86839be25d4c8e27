import Rustgo.CallRules
import Rustgo.CoordinatorDepartures
import Rustgo.CoordinatorHistory

namespace Rustgo.Coordinator

open Checks Protocol Registry Rendezvous Tables RendezvousCoordinator CoordinatorState Runs

variable {c : RendezvousCoordinator} {timely : Prop} {s s' : Server} {id : SessionId} {session session' : StoredSession}
  {now : Moment} {token : Vector UInt8 32} {authenticated : ControlSessionGuard} {envelope : RendezvousEnvelope}
  {frame : PeerRelayFrame} {r r' r'' : ClientRegistry} {op : Operation}

/-- Every runtime that is in the registry was there before, for the same control
session and shown alike. -/
structure SameRuntimes (r r' : ClientRegistry) : Prop where
  consistent : r.Consistent → r'.Consistent
  before : ∀ {name runtime'}, r'.byName.lookup name = some runtime' → ∃ runtime, r.byName.lookup name = some runtime ∧
    runtime'.identity = runtime.identity ∧ runtime'.observabilityIdentity = runtime.observabilityIdentity ∧
    runtime'.available = runtime.available

namespace SameRuntimes

theorem refl (r : ClientRegistry) : SameRuntimes r r := ⟨id, fun h => ⟨_, h, rfl, rfl, rfl⟩⟩

theorem trans (h : SameRuntimes r r') (h' : SameRuntimes r' r'') : SameRuntimes r r'' where
  consistent hc := h'.consistent (h.consistent hc)
  before hruntime := by
    obtain ⟨runtime', hruntime', hidentity', hobserved', havailable'⟩ := h'.before hruntime
    obtain ⟨runtime, hruntime, hidentity, hobserved, havailable⟩ := h.before hruntime'
    exact ⟨runtime, hruntime, hidentity'.trans hidentity, hobserved'.trans hobserved, havailable'.trans havailable⟩

theorem of_byName (hconsistent : r.Consistent → r'.Consistent) (h : r'.byName = r.byName) : SameRuntimes r r' :=
  ⟨hconsistent, fun hruntime => ⟨_, h ▸ hruntime, rfl, rfl, rfl⟩⟩

theorem mapRuntime (name : DeviceName) {f : SessionRuntime → SessionRuntime} (hf : ∀ runtime, (f runtime).identity = runtime.identity ∧
    (f runtime).observabilityIdentity = runtime.observabilityIdentity ∧ (f runtime).available = runtime.available) :
    SameRuntimes r (r.mapRuntime name f) where
  consistent hc := hc.mapRuntime name fun runtime => (hf runtime).1
  before := by
    intro other runtime' h
    rw [ClientRegistry.mapRuntime] at h
    split at h
    · exact ⟨runtime', h, rfl, rfl, rfl⟩
    · next runtime hruntime =>
      by_cases hname : other = name
      · rw [hname, Finmap.lookup_insert, Option.some.injEq] at h
        rw [← h, hname]
        exact ⟨runtime, hruntime, hf runtime⟩
      · rw [Finmap.lookup_insert_of_ne _ hname] at h
        exact ⟨runtime', h, rfl, rfl, rfl⟩

theorem trySend (name : DeviceName) (message : Message) : SameRuntimes r (r.trySend name message) :=
  mapRuntime name fun _ => ⟨rfl, rfl, rfl⟩

theorem observeAll (events : List ObservationEvent) : SameRuntimes r (tryObserveAll r events) :=
  .of_byName (tryObserveAll_consistent events) (byName_tryObserveAll events)

theorem observeClose (session : StoredSession) (reason : String) (now : Moment) : SameRuntimes r (observeP2pClose c r session reason now) :=
  .of_byName (observeP2pClose_consistent session reason) (byName_observeP2pClose session reason)

theorem notice (session : StoredSession) (target : SessionOwner) (code : RendezvousErrorCode) :
    SameRuntimes r (sendServerNotice r session target code) := by
  unfold sendServerNotice
  dsimp only
  split
  · next r' h =>
    simp only [routeTo, bind_eq_ok, require_eq_ok, pure_eq_ok, exists_const] at h
    obtain ⟨active, _, _, rfl⟩ := h
    exact trySend _ _
  · exact refl r

theorem disconnectOne (authenticated : AuthenticatedClient) (now : Moment) (session : StoredSession) :
    SameRuntimes r (c.disconnectOne authenticated now r session) :=
  (observeClose session _ now).trans (notice _ _ _)

theorem foldl {α : Type} {f : ClientRegistry → α → ClientRegistry} (hf : ∀ r a, SameRuntimes r (f r a)) (xs : List α) :
    SameRuntimes r (xs.foldl f r) := by
  induction xs generalizing r with
  | nil => exact refl r
  | cons x xs ih => exact (hf r x).trans ih

end SameRuntimes

/-- What a call in the background does to control sessions, and to the number of
sessions that have borne an id. -/
structure Bystands (s s' : Server) : Prop where
  runtimes : SameRuntimes s.registry s'.registry
  incarnation : ∀ id, s'.incarnation id = s.incarnation id

namespace Bystands

theorem refl (s : Server) : Bystands s s := ⟨.refl _, fun _ => rfl⟩

theorem trans {s'' : Server} (h : Bystands s s') (h' : Bystands s' s'') : Bystands s s'' :=
  ⟨h.runtimes.trans h'.runtimes, fun id => (h'.incarnation id).trans (h.incarnation id)⟩

theorem registry (h : SameRuntimes s.registry r) {state : CoordinatorState} : Bystands s { s with registry := r, state } :=
  ⟨h, fun _ => rfl⟩

/-- An event that opens no session is added to the record. -/
theorem append (h : SameRuntimes s.registry r) {state : CoordinatorState} {event : HistoryEvent} (hnew : ∀ id, ¬event.Opens id) :
    Bystands s ⟨r, state, s.history ++ [event]⟩ := by
  refine ⟨h, fun id => ?_⟩
  have hsame := incarnation_append (s := s) event id
  rw [if_neg (hnew id), Nat.add_zero] at hsame
  exact hsame

end Bystands

section Calls

variable {result : Except RendezvousErrorCode Unit}

theorem providerDecision_bystands (h : providerDecision now authenticated envelope s = some (result, s')) : Bystands s s' := by
  obtain ⟨_, _, rfl⟩ | ⟨plan, permit, hplan, _, _, rfl⟩ := providerDecision_cases h
  · exact .refl _
  · have hnew := passes_not_opens s now authenticated permit
      fun value hvalue => by cases (decisionPlan_eq_ok hplan).payload.symm.trans hvalue
    have hdecided : Bystands s ((s.put envelope.sessionId (decidedSession plan)).append (s.passes envelope authenticated permit now)) :=
      .append (.refl _) hnew
    split
    · exact hdecided.trans (.registry (.trySend _ _))
    · exact (hdecided.trans (.append (.refl _) fun _ => id)).trans (.registry (.trySend _ _))

theorem sendGrant_bystands {grant : Option PunchGrant} (h : sendGrant session grant s = some (result, s')) : Bystands s s' := by
  obtain ⟨_, _, rfl⟩ | ⟨_, _, rfl, _⟩ | ⟨_, _, _, _, _, _, _, rfl⟩ := sendGrant_cases h
  · exact .refl _
  · exact .refl _
  · exact .registry ((SameRuntimes.trySend _ _).trans (.trySend _ _))

theorem forwardEnvelope_bystands (h : c.forwardEnvelope now token authenticated envelope s = some (result, s')) : Bystands s s' := by
  obtain ⟨_, _, rfl⟩ | ⟨plan, permit, hplan, _, hgrant⟩ := forwardEnvelope_cases h
  · exact .refl _
  · have hnew := passes_not_opens s now authenticated permit fun value hvalue => by
      have hpayload := (forwardPlan_eq_ok hplan).payload
      rw [hvalue] at hpayload
      exact hpayload
    have hforwarded : Bystands s (s.forwardedBy c now authenticated envelope plan permit) :=
      .append ((SameRuntimes.observeAll _).trans (.trySend _ _)) hnew
    exact hforwarded.trans (sendGrant_bystands hgrant)

theorem closeSession_bystands (h : c.closeSession now authenticated envelope s = some (result, s')) : Bystands s s' := by
  obtain ⟨_, _, rfl⟩ | ⟨plan, permit, hplan, _, _, rfl⟩ := closeSession_cases h
  · exact .refl _
  · have hnew := passes_not_opens s now authenticated permit fun value hvalue => by
      have hpayload := (closePlan_eq_ok hplan).payload
      rw [hvalue] at hpayload
      exact hpayload
    have hclosed : Bystands s (s.closedBy authenticated envelope plan permit now) :=
      Bystands.trans (.append (.refl _) hnew) (.append (.refl _) fun _ => id)
    refine hclosed.trans (.registry (SameRuntimes.trans ?_ (.trySend _ _)))
    cases (CoordinatorState.tombstoneSession _ envelope.sessionId).2 with
    | none => exact .refl _
    | some session => exact .observeClose session _ now

theorem expireSessionsBatch_bystands (h : c.expireSessionsBatch now s = some (result, s')) : Bystands s s' := by
  obtain ⟨removed, state, _, _, rfl⟩ := expireSessionsBatch_cases h
  exact .registry (.foldl (fun r session => ((SameRuntimes.observeClose session _ now).trans (.notice _ _ _)).trans (.notice _ _ _)) removed)

theorem relayFrame_bystands (h : relayFrame now authenticated frame session s = some (result, s')) : Bystands s s' := by
  obtain ⟨_, _, rfl⟩ | ⟨_, _, rfl⟩ | ⟨target, permit, message, _, _, _, _, _, rfl⟩ := relayFrame_cases h
  · exact .refl _
  · exact .registry (.refl _)
  · exact .append (.trySend _ _) fun _ => id

theorem forwardRelayFrame_bystands (h : c.forwardRelayFrame now authenticated frame s = some (result, s')) : Bystands s s' := by
  obtain ⟨_, _, rfl⟩ | ⟨t, hbatch, h⟩ := forwardRelayFrame_cases h
  · exact .refl _
  have hexpired := expireSessionsBatch_bystands hbatch
  obtain ⟨_, _, rfl⟩ | ⟨_, rfl⟩ | ⟨session, _, h⟩ := h
  · exact hexpired
  · exact hexpired
  · exact hexpired.trans (relayFrame_bystands h)

theorem expireNow_bystands {order : List SessionId} (h : c.expireNow now order s = some (result, s')) : Bystands s s' := by
  obtain ⟨_, t, ht, heq⟩ | ⟨_, t, ht, h⟩ := Call.bind_cases h
  · obtain ⟨_, rfl⟩ := Prod.mk.inj heq
    exact expireSessionsBatch_bystands ht
  · obtain ⟨_, rfl⟩ := Prod.mk.inj (Option.some.inj h)
    refine (expireSessionsBatch_bystands ht).trans ?_
    dsimp only
    split
    · exact .registry (.observeAll _)
    · exact .refl t

theorem onRegistry_bystands {f : ClientRegistry → ClientRegistry} (hf : ∀ r, SameRuntimes r (f r)) (h : onRegistry f s = some (result, s')) :
    Bystands s s' := by
  obtain ⟨_, rfl⟩ := Prod.mk.inj (Option.some.inj h)
  exact .registry (hf _)

theorem background_bystands (hb : op.Background) (h : perform c op s = some (result, s')) : Bystands s s' := by
  cases op with
  | providerDecision => exact providerDecision_bystands h
  | forwardEnvelope => exact forwardEnvelope_bystands h
  | closeSession => exact closeSession_bystands h
  | forwardRelayFrame => exact forwardRelayFrame_bystands h
  | expireNow => exact expireNow_bystands h
  | enqueue name message => exact onRegistry_bystands (fun _ => .trySend name message) h
  | receive name | closeOutbound name =>
      rw [perform] at h
      refine onRegistry_bystands (fun r => ?_) h
      exact .mapRuntime name fun _ => ⟨rfl, rfl, rfl⟩
  | installObservabilitySink =>
      rw [perform] at h
      refine onRegistry_bystands (fun r => ?_) h
      exact .of_byName (fun hc => hc.of_eq rfl rfl) rfl
  | request | removeDevice | claim | markUnavailable | finalizeDisconnect => exact absurd hb id

end Calls

/-- The two sessions are between the same control sessions. -/
def SameOwners (session session' : StoredSession) : Prop :=
  session'.consumer = session.consumer ∧ session'.provider = session.provider

theorem SameOwners.owns_iff (h : SameOwners session session') (identity : AuthenticatedClient) :
    Owns identity session' ↔ Owns identity session := by
  rw [Owns, Owns, h.1, h.2]

section Sessions

theorem Change.history (h : Change c timely s s') : s.history <+: s'.history := by
  cases h with
  | registry | admitted | flushed | discarded | purged => exact List.prefix_rfl
  | opened | decided | forwarded | relayed | entombed => exact List.prefix_append _ _
  | closed => exact (List.prefix_append _ _).trans (List.prefix_append _ _)

theorem Change.incarnation_le (h : Change c timely s s') (id : SessionId) : s.incarnation id ≤ s'.incarnation id :=
  h.history.sublist.countP_le

/-- A session is new, or has kept its owners. -/
theorem Change.owners (h : Change c timely s s') (hactive : s'.state.activeSession id = some session')
    (hsame : s'.incarnation id = s.incarnation id) : ∃ session, s.state.activeSession id = some session ∧ SameOwners session session' := by
  cases h with
  | registry | discarded => exact ⟨session', hactive, rfl, rfl⟩
  | purged => exact ⟨session', (active_erase hactive).2, rfl, rfl⟩
  | entombed => exact ⟨session', (active_tombstone hactive).2, rfl, rfl⟩
  | @opened now authenticated envelope plan hplan =>
      rcases active_open hactive with ⟨hid, rfl⟩ | ⟨_, hold⟩
      · obtain rfl : id = envelope.sessionId := hid
        rw [incarnation_append, if_pos ⟨⟨_, (requestPlan_eq_ok hplan).payload⟩, rfl⟩] at hsame
        exact absurd hsame (Nat.succ_ne_self _)
      · exact ⟨session', hold, rfl, rfl⟩
  | decided hplan =>
      rcases active_put hactive with ⟨rfl, rfl⟩ | ⟨_, hold⟩
      · exact ⟨_, (decisionPlan_eq_ok hplan).session, decidedSession_keeps.consumer, decidedSession_keeps.provider⟩
      · exact ⟨session', hold, rfl, rfl⟩
  | @forwarded now authenticated envelope plan permit hplan =>
      rcases active_put hactive with ⟨rfl, rfl⟩ | ⟨_, hold⟩
      · have hkeeps := forwardedSession_keeps c now authenticated envelope plan
        exact ⟨_, (forwardPlan_eq_ok hplan).session, hkeeps.consumer, hkeeps.provider⟩
      · exact ⟨session', hold, rfl, rfl⟩
  | closed hplan =>
      obtain ⟨hne, hput⟩ := active_tombstone hactive
      rcases active_put hput with ⟨heq, _⟩ | ⟨_, hold⟩
      · exact absurd heq hne
      · exact ⟨session', hold, rfl, rfl⟩
  | admitted now frame hold =>
      rcases active_put hactive with ⟨rfl, rfl⟩ | ⟨_, hother⟩
      · exact ⟨_, hold, rfl, rfl⟩
      · exact ⟨session', hother, rfl, rfl⟩
  | relayed hold =>
      rcases active_put hactive with ⟨rfl, rfl⟩ | ⟨_, hother⟩
      · exact ⟨_, hold, relayedSession_keeps.consumer, relayedSession_keeps.provider⟩
      · exact ⟨session', hother, rfl, rfl⟩
  | flushed now hold =>
      rcases active_put hactive with ⟨rfl, rfl⟩ | ⟨_, hother⟩
      · exact ⟨_, hold, flushSession_core.consumer, flushSession_core.provider⟩
      · exact ⟨session', hother, rfl, rfl⟩

theorem Changes.incarnation_le (h : Changes c timely s s') (id : SessionId) : s.incarnation id ≤ s'.incarnation id := by
  induction h with
  | refl => exact Nat.le_refl _
  | tail _ hl ih => exact ih.trans (hl.incarnation_le id)

theorem Changes.owners (h : Changes c timely s s') (hactive : s'.state.activeSession id = some session')
    (hsame : s'.incarnation id = s.incarnation id) : ∃ session, s.state.activeSession id = some session ∧ SameOwners session session' := by
  induction h generalizing session' with
  | refl => exact ⟨session', hactive, rfl, rfl⟩
  | @tail t u hst hl ih =>
      have hle := Changes.incarnation_le hst id
      have hle' := hl.incarnation_le id
      obtain ⟨session, hsession, hconsumer, hprovider⟩ := hl.owners hactive (by omega)
      obtain ⟨old, hold, hconsumer', hprovider'⟩ := ih hsession (by omega)
      exact ⟨old, hold, hconsumer.trans hconsumer', hprovider.trans hprovider'⟩

end Sessions

end Rustgo.Coordinator
