import Rustgo.CoordinatorHistory

namespace Rustgo.Coordinator

open Checks Protocol Registry Rendezvous Tables RendezvousCoordinator CoordinatorState Runs

inductive NoteKind
  | opened
  | delta
  | closed
deriving DecidableEq

/-- The events of a peer to peer session besides the open and the close are byte counts. -/
def noteKind : ObservationEvent → NoteKind
  | .p2pSessionOpened .. => .opened
  | .p2pSessionClosed .. => .closed
  | _ => .delta

/-- An event that a call is going to publish, with the session it is about. -/
structure Note where
  sessionId : SessionId
  incarnation : Nat
  event : ObservationEvent

namespace Note

def key (note : Note) : SessionId × Nat := (note.sessionId, note.incarnation)

def kind (note : Note) : NoteKind := noteKind note.event

end Note

def Server.note (s : Server) (id : SessionId) (event : ObservationEvent) : Note := ⟨id, s.incarnation id, event⟩

/-- The parts of the calls that hold the lock of the coordinator, with the checks
before and the sends after. -/
inductive CriticalSection
  | request (now : Moment) (authenticated : ControlSessionGuard) (envelope : RendezvousEnvelope)
  | providerDecision (now : Moment) (authenticated : ControlSessionGuard) (envelope : RendezvousEnvelope)
  | forwardEnvelope (now : Moment) (token : Vector UInt8 32) (authenticated : ControlSessionGuard) (envelope : RendezvousEnvelope)
  | closeSession (now : Moment) (authenticated : ControlSessionGuard) (envelope : RendezvousEnvelope)
  | expireSessionsBatch (now : Moment)
  | relayFrame (now : Moment) (authenticated : ControlSessionGuard) (frame : PeerRelayFrame)
  | flushObservabilityDue (now : Moment) (order : List SessionId)
  | removeDevice (now : Moment) (identity : AuthenticatedClient) (order : List SessionId)

namespace RendezvousCoordinator

variable (c : RendezvousCoordinator)

/-- `forward_relay_frame` once the due sessions are gone. -/
def relaySection (now : Moment) (authenticated : ControlSessionGuard) (frame : PeerRelayFrame) : Op Unit := do
  let session ← .read fun s => relaySession s authenticated frame
  match session with
  | none => pure ()
  | some session => relayFrame now authenticated frame session

/-- What `observe_p2p_close` publishes. -/
def closeEvents (session : StoredSession) (reason : String) (now : Moment) : List ObservationEvent :=
  (p2pTrafficEvent c session session.pendingRelayTraffic).toList ++
    if session.observedPath.isSome then
      [.p2pSessionClosed session.consumer.observabilityIdentity (observedP2pSessionId c session.metadata.sessionId) now.unixMillis (some reason)]
    else []

end RendezvousCoordinator

namespace CriticalSection

variable (c : RendezvousCoordinator)

def enter : CriticalSection → Op Unit
  | request now authenticated envelope => do
      let _ ← c.request now authenticated envelope
      pure ()
  | providerDecision now authenticated envelope => RendezvousCoordinator.providerDecision now authenticated envelope
  | forwardEnvelope now token authenticated envelope => c.forwardEnvelope now token authenticated envelope
  | closeSession now authenticated envelope => c.closeSession now authenticated envelope
  | expireSessionsBatch now => c.expireSessionsBatch now
  | relayFrame now authenticated frame => relaySection now authenticated frame
  | flushObservabilityDue now order => c.flushObservabilityDue now order
  | removeDevice now identity order => c.removeDevice now identity order

def Iterates (s : Server) : CriticalSection → Prop
  | flushObservabilityDue _ order | removeDevice _ _ order => order.Nodup ∧ order.toFinset = s.state.sessions.keys
  | _ => True

instance (s : Server) : (cs : CriticalSection) → Decidable (cs.Iterates s)
  | flushObservabilityDue _ order | removeDevice _ _ order =>
      inferInstanceAs (Decidable (order.Nodup ∧ order.toFinset = s.state.sessions.keys))
  | request .. | providerDecision .. | forwardEnvelope .. | closeSession .. | expireSessionsBatch _ | relayFrame .. => isTrue trivial

/-- What the call has to publish when it drops the lock. -/
def notes (s : Server) : CriticalSection → List Note
  | forwardEnvelope now _ authenticated envelope =>
      match forwardPlan s now authenticated envelope with
      | .ok plan =>
          match reserveTo s.registry plan.target with
          | .ok _ => (forwardedEvents c now authenticated envelope plan).map (s.note envelope.sessionId)
          | .error _ => []
      | .error _ => []
  | closeSession now authenticated envelope =>
      match closePlan s now authenticated envelope with
      | .ok plan =>
          match reserveTo s.registry plan.target with
          | .ok _ => (c.closeEvents plan.session "closed" now).map (s.note envelope.sessionId)
          | .error _ => []
      | .error _ => []
  | expireSessionsBatch now =>
      match s.state.expireLoop now.unixSecs expiryMaintenanceBatch with
      | some (removed, _) => removed.flatMap fun session => (c.closeEvents session "expired" now).map (s.note session.metadata.sessionId)
      | none => []
  | flushObservabilityDue now order =>
      if s.registry.observabilityEnabled then
        order.flatMap fun id => (s.state.activeSession id).elim [] fun session => (c.flushSession now session).2.map (s.note id)
      else []
  | removeDevice now identity order =>
      (removeLoop identity order s.state).1.flatMap fun p => (c.closeEvents p.2 "peer-disconnected" now).map (s.note p.1)
  | request .. | providerDecision .. | relayFrame .. => []

end CriticalSection

/-- The coordinator with calls that have dropped the lock and have events left to
publish. `unpublished` has them in the order in which the lock was dropped, each with its call. -/
structure Publishing where
  server : Server
  calls : Nat
  unpublished : List (Nat × Note)
  published : List Note

inductive PublishingLabel
  | enter (cs : CriticalSection)
  | publish (i : Nat)
  | registry (r : ClientRegistry)

namespace Publishing

variable (c : RendezvousCoordinator)

def new (maxClients : Nat) : Publishing := ⟨.new maxClients, 0, [], []⟩

/-- The lock is dropped, and nothing is published yet. -/
def left (s : Publishing) (cs : CriticalSection) (server : Server) : Publishing where
  server := { server with registry := { server.registry with observability := s.server.registry.observability } }
  calls := s.calls + 1
  unpublished := s.unpublished ++ (cs.notes c s.server).map (s.calls, ·)
  published := s.published

def enter (s : Publishing) (cs : CriticalSection) : Option Publishing :=
  if cs.Iterates s.server then (cs.enter c s.server).map fun p => s.left c cs p.2 else none

/-- A call publishes its events one after the other, and may be overtaken between any two. -/
def publish (s : Publishing) (i : Nat) : Option Publishing :=
  s.unpublished[i]?.bind fun entry =>
    if ∀ other ∈ s.unpublished.take i, other.1 ≠ entry.1 then
      some { s with
        server := { s.server with registry := s.server.registry.tryObserve entry.2.event }
        unpublished := s.unpublished.eraseIdx i
        published := s.published ++ [entry.2] }
    else none

/-- The registry has a lock of its own, and may have become any other meanwhile. -/
def Step (s : Publishing) (l : PublishingLabel) (t : Publishing) : Prop :=
  match l with
  | .enter cs => s.enter c cs = some t
  | .publish i => s.publish i = some t
  | .registry r => r.Consistent ∧ t = { s with server := { s.server with registry := r } }

def next (s : Publishing) : PublishingLabel → Option Publishing
  | .enter cs => s.enter c cs
  | .publish i => s.publish i
  | .registry _ => none

theorem step_of_next {s t : Publishing} {l : PublishingLabel} (h : s.next c l = some t) : Step c s l t := by
  cases l with
  | enter cs => exact h
  | publish i => exact h
  | registry r => cases h

/-- No call that dropped the lock earlier still has an event of the session, unless
it is of the same kind. -/
def InTurn (s : Publishing) : PublishingLabel → Prop
  | .publish i => ∀ entry ∈ s.unpublished[i]?, ∀ other ∈ s.unpublished.take i, other.2.key = entry.2.key → other.2.kind = entry.2.kind
  | .enter _ | .registry _ => True

instance (s : Publishing) : (l : PublishingLabel) → Decidable (s.InTurn l)
  | .publish i => inferInstanceAs (Decidable (∀ entry ∈ s.unpublished[i]?, _))
  | .enter _ | .registry _ => isTrue trivial

/-- What the sink has been told of a session. -/
def heard (s : Publishing) (key : SessionId × Nat) : List NoteKind := (s.published.filter (·.key = key)).map Note.kind

end Publishing

/-- The session is no longer in the active records. -/
def Server.Left (s : Server) (key : SessionId × Nat) : Prop :=
  key.2 < s.incarnation key.1 ∨ (key.2 = s.incarnation key.1 ∧ s.state.activeSession key.1 = none)

/-- The open comes first, then byte counts, then one close. -/
def Orderly (kinds : List NoteKind) : Prop :=
  kinds = [] ∨ ∃ n, kinds = .opened :: List.replicate n .delta ∨ kinds = .opened :: List.replicate n .delta ++ [.closed]

/-- What is told of each session is in order, and where nothing is left to publish
every session that was opened and has left has been closed once. -/
def Publishing.Announced (s : Publishing) : Prop := ∀ key, Orderly (s.heard key) ∧
  ((∀ entry ∈ s.unpublished, entry.2.key ≠ key) → s.server.Left key → .opened ∈ s.heard key → (s.heard key).count .closed = 1)

end Rustgo.Coordinator
