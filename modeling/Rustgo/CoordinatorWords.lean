import Rustgo.CoordinatorNotes

namespace Rustgo.Coordinator

open Checks Protocol Registry Rendezvous Tables RendezvousCoordinator CoordinatorState Runs

variable {c : RendezvousCoordinator} {s s' s'' : Server} {now : Moment} {token : Vector UInt8 32}
  {authenticated : ControlSessionGuard} {envelope : RendezvousEnvelope} {frame : PeerRelayFrame} {id other : SessionId}
  {session session' : StoredSession} {state : CoordinatorState} {old new : Option StoredSession}
  {events : List ObservationEvent} {notes notes' : List Note} {w : List NoteKind} {key : SessionId × Nat}
  {plan : ForwardPlan}

section Lookups

theorem activeSession_put_self : (state.putSession id session).activeSession id = some session :=
  activeSession_eq_some.mpr (Finmap.lookup_insert _)

theorem activeSession_tombstone_self : (state.tombstoneSession id).1.activeSession id = none := by
  apply Option.eq_none_iff_forall_ne_some.mpr
  exact fun session h => (active_tombstone h).1 rfl

theorem activeSession_tombstone_ne (h : other ≠ id) : (state.tombstoneSession id).1.activeSession other = state.activeSession other := by
  rw [tombstoneSession]
  split
  · rw [activeSession, Finmap.lookup_insert_of_ne _ h, activeSession]
  · rfl

theorem activeSession_erase_self {counts : Table DeviceName Nat} {expiry : MinHeap ExpiryEntry} :
    activeSession ⟨state.sessions.erase id, counts, expiry⟩ id = none := by
  rw [activeSession, Finmap.lookup_erase, Option.bind_none]

theorem activeSession_erase_ne {counts : Table DeviceName Nat} {expiry : MinHeap ExpiryEntry} (h : other ≠ id) :
    activeSession ⟨state.sessions.erase id, counts, expiry⟩ other = state.activeSession other := by
  rw [activeSession, Finmap.lookup_erase_ne h, activeSession]

theorem activeSession_open_self (state : CoordinatorState) (session : StoredSession) : (openSession state session).activeSession session.metadata.sessionId = some session :=
  activeSession_eq_some.mpr (Finmap.lookup_insert _)

theorem activeSession_open_ne (h : other ≠ session.metadata.sessionId) :
    (openSession state session).activeSession other = state.activeSession other := by
  rw [activeSession, openSession, Finmap.lookup_insert_of_ne _ h, activeSession]

end Lookups

/-- How far a session has come for the sink. -/
inductive Phase
  | silent
  | shown
  | ended

namespace Phase

/-- What the sink is told of a session up to its phase. -/
def Word : Phase → List NoteKind → Prop
  | silent, w => w = []
  | shown, w => ∃ n, w = .opened :: List.replicate n .delta
  | ended, w => w = [] ∨ ∃ n, w = .opened :: List.replicate n .delta ++ [.closed]

theorem Word.orderly {phase : Phase} (h : phase.Word w) : Orderly w := by
  cases phase with
  | silent => exact .inl h
  | shown =>
      obtain ⟨n, rfl⟩ := h
      exact .inr ⟨n, .inl rfl⟩
  | ended =>
      rcases h with rfl | ⟨n, rfl⟩
      · exact .inl rfl
      · exact .inr ⟨n, .inr rfl⟩

/-- Byte counts may be told of a session that is shown. -/
theorem Word.deltas (h : shown.Word w) (n : Nat) : shown.Word (w ++ List.replicate n .delta) := by
  obtain ⟨k, rfl⟩ := h
  exact ⟨k + n, by rw [List.cons_append, List.replicate_append_replicate]⟩

theorem Word.closed (h : shown.Word w) (n : Nat) : ended.Word (w ++ (List.replicate n .delta ++ [.closed])) := by
  obtain ⟨k, rfl⟩ := h
  exact .inr ⟨k + n, by rw [List.cons_append, ← List.append_assoc, List.replicate_append_replicate, List.cons_append]⟩

end Phase

def phaseOf : Option StoredSession → Phase
  | none => .ended
  | some session => if session.observedPath.isSome then .shown else .silent

def Server.phase (s : Server) (key : SessionId × Nat) : Phase :=
  if key.2 < s.incarnation key.1 then .ended
  else if key.2 = s.incarnation key.1 then phaseOf (s.state.activeSession key.1)
  else .silent

def kindsOf (key : SessionId × Nat) (notes : List Note) : List NoteKind := (notes.filter (·.key = key)).map Note.kind

theorem kindsOf_append : kindsOf key (notes ++ notes') = kindsOf key notes ++ kindsOf key notes' := by
  rw [kindsOf, List.filter_append, List.map_append, kindsOf, kindsOf]

theorem kindsOf_self (h : ∀ note ∈ notes, note.key = key) : kindsOf key notes = notes.map Note.kind := by
  rw [kindsOf, List.filter_eq_self.mpr fun note hnote => decide_eq_true (h note hnote)]

theorem kindsOf_other (h : ∀ note ∈ notes, note.key ≠ key) : kindsOf key notes = [] := by
  rw [kindsOf, List.filter_eq_nil_iff.mpr fun note hnote => by rw [decide_eq_true_eq]; exact h note hnote, List.map_nil]

/-- Whatever was told of a session before, the events continue it. -/
def Extends (old new : Option StoredSession) (events : List ObservationEvent) : Prop :=
  ∀ w, (phaseOf old).Word w → (phaseOf new).Word (w ++ events.map noteKind)

/-- What was told of each session before is continued by the notes. -/
def Accounts (s s' : Server) (notes : List Note) : Prop :=
  ∀ key w, (s.phase key).Word w → (s'.phase key).Word (w ++ kindsOf key notes)

namespace Accounts

theorem of_same (hincarnation : ∀ id, s'.incarnation id = s.incarnation id)
    (hactive : ∀ id, s'.state.activeSession id = s.state.activeSession id) : Accounts s s' [] := by
  intro key w hw
  rw [Server.phase, hincarnation, hactive]
  exact (List.append_nil w).symm ▸ hw

theorem trans (h : Accounts s s' notes) (h' : Accounts s' s'' notes') : Accounts s s'' (notes ++ notes') := by
  intro key w hw
  rw [kindsOf_append, ← List.append_assoc]
  exact h' key _ (h key w hw)

/-- One session changes, and the notes are about it. -/
theorem at_session (id : SessionId) (hincarnation : ∀ id, s'.incarnation id = s.incarnation id)
    (hother : ∀ other, other ≠ id → s'.state.activeSession other = s.state.activeSession other)
    (hext : Extends (s.state.activeSession id) (s'.state.activeSession id) events) : Accounts s s' (events.map (s.note id)) := by
  have hkey {note : Note} (h : note ∈ events.map (s.note id)) : note.key = (id, s.incarnation id) := by
    obtain ⟨_, _, rfl⟩ := List.mem_map.mp h
    rfl
  rintro ⟨other, k⟩ w hw
  simp only [Server.phase, hincarnation] at hw ⊢
  by_cases hsame : (id, s.incarnation id) = (other, k)
  · obtain ⟨rfl, rfl⟩ := Prod.mk.inj hsame
    rw [if_neg (Nat.lt_irrefl _), if_pos rfl] at hw ⊢
    rw [kindsOf_self fun note hnote => hkey hnote, List.map_map]
    exact hext w hw
  · rw [kindsOf_other fun note hnote => (hkey hnote).symm ▸ hsame, List.append_nil]
    by_cases hid : other = id
    · have hk : k ≠ s.incarnation other := fun hk => hsame (by rw [hid, hk, hid])
      rw [if_neg hk] at hw ⊢
      exact hw
    · rw [hother other hid]
      exact hw

end Accounts

/-- A path is shown of accepted sessions only, and relayed bytes are counted once it is. -/
structure Visible (session : StoredSession) : Prop where
  path : session.observedPath ≠ none → session.metadata.protocol ≠ none
  traffic : session.observedPath = none → session.pendingRelayTraffic = .default

section Sessions

theorem phaseOf_some : phaseOf (some session) = if session.observedPath.isSome then .shown else .silent := rfl

variable (c) in
theorem trafficKinds (session : StoredSession) (counters : TrafficCounters) :
    ∃ n, (p2pTrafficEvent c session counters).toList.map noteKind = List.replicate n .delta := by
  rw [p2pTrafficEvent]
  split
  · exact ⟨0, rfl⟩
  · exact ⟨1, rfl⟩

theorem trafficEvent_default : p2pTrafficEvent c session .default = none := if_pos rfl

theorem Extends.same (session session' : StoredSession) (h : session'.observedPath = session.observedPath) : Extends (some session) (some session') [] := by
  intro w hw
  rw [List.map_nil, List.append_nil, phaseOf_some, h]
  exact hw

variable (c now) in
/-- A session that leaves is closed if it was shown. -/
theorem Extends.close (hv : Visible session) (reason : String) : Extends (some session) none (c.closeEvents session reason now) := by
  intro w hw
  rw [phaseOf_some] at hw
  rw [closeEvents, List.map_append]
  cases hpath : session.observedPath with
  | none =>
      rw [hpath] at hw
      obtain rfl : w = [] := hw
      rw [hv.traffic hpath, trafficEvent_default]
      exact .inl rfl
  | some path =>
      rw [hpath] at hw
      obtain ⟨n, htraffic⟩ := trafficKinds c session session.pendingRelayTraffic
      rw [htraffic]
      exact Phase.Word.closed hw n

theorem Extends.leave (h : session.observedPath = none) : Extends (some session) none [] := by
  intro w hw
  rw [phaseOf_some, h] at hw
  obtain rfl : w = [] := hw
  exact .inl rfl

variable (c now session) in
theorem flushSession_path : (c.flushSession now session).1.observedPath = session.observedPath := by
  rw [flushSession]
  split
  · rfl
  · rfl

theorem Visible.flush (hv : Visible session) : Visible (c.flushSession now session).1 := by
  rw [flushSession]
  split
  · exact ⟨hv.path, fun _ => rfl⟩
  · exact hv

variable (c now session) in
/-- What is counted is told at once or later. -/
theorem flushSession_events : (c.flushSession now session).2 = [] ∨
    (c.flushSession now session).2 = (p2pTrafficEvent c session session.pendingRelayTraffic).toList := by
  rw [flushSession]
  split
  · exact .inr rfl
  · exact .inl rfl

variable (c now) in
theorem Extends.flush (hv : Visible session) : Extends (some session) (some (c.flushSession now session).1) (c.flushSession now session).2 := by
  have hsame := Extends.same session _ (flushSession_path c now session)
  intro w hw
  rcases flushSession_events c now session with hnone | htold
  · rw [hnone]
    exact hsame w hw
  · rw [phaseOf_some, flushSession_path, htold]
    rw [phaseOf_some] at hw
    cases hpath : session.observedPath with
    | none =>
        rw [hpath] at hw
        rw [hv.traffic hpath, trafficEvent_default]
        exact (List.append_nil w).symm ▸ hw
    | some path =>
        rw [hpath] at hw
        obtain ⟨n, htraffic⟩ := trafficKinds c session session.pendingRelayTraffic
        rw [htraffic]
        exact Phase.Word.deltas hw n

variable (c) in
/-- The path is shown now, or the session is shown as it was. -/
theorem applyPath_cases (session : StoredSession) (now : Moment) (path : Option SessionPath) :
    (∃ shown, session.observedPath = none ∧ (c.applyPath session now path).1.observedPath = some shown ∧
      ∃ n, (c.applyPath session now path).2.map noteKind = .opened :: List.replicate n .delta) ∨
    ((c.applyPath session now path).1.observedPath = session.observedPath ∧ (c.applyPath session now path).2 = []) := by
  unfold applyPath
  split
  · next shown hnone =>
    refine .inl ⟨shown, hnone, rfl, ?_⟩
    dsimp only
    split
    · obtain ⟨n, htraffic⟩ := trafficKinds c
        { session with observedPath := some shown, pendingPreselectionRelayTraffic := .default } session.pendingPreselectionRelayTraffic
      exact ⟨n, congrArg (NoteKind.opened :: ·) htraffic⟩
    · exact ⟨0, rfl⟩
  · exact .inr ⟨rfl, rfl⟩

variable (c) in
theorem applyPath_kept (session : StoredSession) (now : Moment) (path : Option SessionPath) :
    (c.applyPath session now path).1.metadata = session.metadata ∧
      (c.applyPath session now path).1.pendingRelayTraffic = session.pendingRelayTraffic := by
  unfold applyPath
  split
  · exact ⟨rfl, rfl⟩
  · exact ⟨rfl, rfl⟩

variable (c now authenticated envelope plan) in
/-- The session before its path is noted, as far as the sink is concerned. -/
theorem announcedRelay_kept : let announced := applyRelay (c.announcedSession now authenticated envelope plan) plan.relayUpdate
    announced.metadata = plan.session.metadata ∧ announced.observedPath = plan.session.observedPath ∧
      announced.pendingRelayTraffic = plan.session.pendingRelayTraffic := by
  obtain ⟨digests, hannounced⟩ := announcedSession_eq c now authenticated envelope plan
  obtain ⟨relay, hrelay⟩ := applyRelay_eq (c.announcedSession now authenticated envelope plan) plan.relayUpdate
  dsimp only
  rw [hrelay, hannounced]
  exact ⟨rfl, rfl, rfl⟩

variable (c now authenticated envelope) in
theorem Extends.forward : Extends (some plan.session) (some (forwardedSession c now authenticated envelope plan))
    (forwardedEvents c now authenticated envelope plan) := by
  intro w hw
  have hpath := (announcedRelay_kept c now authenticated envelope plan).2.1
  rw [phaseOf_some, ← hpath] at hw
  rw [phaseOf_some, forwardedSession, forwardedEvents]
  rcases applyPath_cases c (applyRelay (c.announcedSession now authenticated envelope plan) plan.relayUpdate) now plan.observedPath with
    ⟨shown, hnone, hshown, n, hkinds⟩ | ⟨hsame, hnone⟩
  · rw [hnone] at hw
    obtain rfl : w = [] := hw
    rw [hshown, hkinds]
    exact ⟨n, rfl⟩
  · rw [hsame, hnone]
    exact (List.append_nil w).symm ▸ hw

theorem Visible.forward (hv : Visible plan.session) (hprotocol : plan.session.metadata.protocol ≠ none) :
    Visible (forwardedSession c now authenticated envelope plan) := by
  obtain ⟨hmetadata, hpath, htraffic⟩ := announcedRelay_kept c now authenticated envelope plan
  obtain ⟨hmetadata', htraffic'⟩ := applyPath_kept c
    (applyRelay (c.announcedSession now authenticated envelope plan) plan.relayUpdate) now plan.observedPath
  constructor
  case path =>
    intro _
    rw [forwardedSession, hmetadata', hmetadata]
    exact hprotocol
  case traffic =>
    intro hnone
    rw [forwardedSession] at hnone ⊢
    rw [htraffic', htraffic]
    rcases applyPath_cases c (applyRelay (c.announcedSession now authenticated envelope plan) plan.relayUpdate) now plan.observedPath with
      ⟨shown, _, hshown, _⟩ | ⟨hsame, _⟩
    · cases hshown.symm.trans hnone
    · exact hv.traffic (hpath ▸ hsame ▸ hnone)

variable (session authenticated frame) in
/-- Frames are counted for the sink where the path is one over the relay. -/
theorem countTraffic_kept : (countTraffic session authenticated frame).metadata = session.metadata ∧
    (countTraffic session authenticated frame).observedPath = session.observedPath ∧
    (session.observedPath = none → (countTraffic session authenticated frame).pendingRelayTraffic = session.pendingRelayTraffic) := by
  unfold countTraffic
  dsimp only
  split
  · exact ⟨rfl, rfl, fun _ => rfl⟩
  · split
    · exact ⟨rfl, rfl, fun _ => rfl⟩
    · split
      · next hpath => exact ⟨rfl, rfl, fun hnone => by cases hpath.symm.trans hnone⟩
      · exact ⟨rfl, rfl, fun _ => rfl⟩
      · exact ⟨rfl, rfl, fun _ => rfl⟩
      · exact ⟨rfl, rfl, fun _ => rfl⟩

variable (session now authenticated frame) in
theorem relayedSession_kept (r : ClientRegistry) : (relayedSession r now authenticated frame session).metadata = session.metadata ∧
    (relayedSession r now authenticated frame session).observedPath = session.observedPath ∧
    (session.observedPath = none → (relayedSession r now authenticated frame session).pendingRelayTraffic = session.pendingRelayTraffic) := by
  rw [relayedSession]
  split
  · exact countTraffic_kept authenticated frame (admittedSession now frame session)
  · exact ⟨rfl, rfl, fun _ => rfl⟩

theorem Visible.of_kept (hv : Visible session) (hmetadata : session'.metadata = session.metadata)
    (hpath : session'.observedPath = session.observedPath)
    (htraffic : session.observedPath = none → session'.pendingRelayTraffic = session.pendingRelayTraffic) : Visible session' where
  path h := by
    rw [hmetadata]
    exact hv.path (hpath ▸ h)
  traffic h := by
    rw [hpath] at h
    rw [htraffic h]
    exact hv.traffic h

theorem Visible.decided {plan : DecisionPlan} (hv : Visible plan.session) : Visible (decidedSession plan) := by
  rw [decidedSession]
  dsimp only
  split
  · next haccepted =>
    refine ⟨fun _ => ?_, hv.traffic⟩
    dsimp only
    cases hdecision : plan.decision with
    | accepted protocol => exact Option.some_ne_none protocol
    | rejected detail =>
        rw [hdecision] at haccepted
        cases haccepted
  · exact ⟨hv.path, hv.traffic⟩

end Sessions

end Rustgo.Coordinator
