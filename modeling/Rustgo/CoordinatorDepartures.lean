import Rustgo.CoordinatorRuns

namespace Rustgo.Coordinator

open Checks Protocol Registry Rendezvous Tables RendezvousCoordinator CoordinatorState Runs

namespace RendezvousCoordinator

variable (c : RendezvousCoordinator)

/-- `request` up to the directory. -/
def requestOrigin (s : Server) (now : Moment) (authenticated : ControlSessionGuard) (envelope : RendezvousEnvelope) :
    Except RendezvousErrorCode RendezvousRequest := do
  validateOrigin s now authenticated envelope
  let request ← okOr envelope.payload.asRequest .invalidState
  require (envelope.target ≠ authenticated.identity.name) .selfTarget
  let entry ← okOr (c.directory.lookup envelope.target) .unknownPeer
  require (entry.enabled = true) .peerDisabled
  pure request

/-- What `request` has found out when it takes the lock. -/
structure RequestCandidate where
  request : RendezvousRequest
  state : RendezvousState
  consumer : SessionOwner
  provider : SessionOwner
  message : Message

/-- `request` from the lookup of the provider to the lock. -/
def requestProvider (s : Server) (now : Moment) (authenticated : ControlSessionGuard) (envelope : RendezvousEnvelope)
    (request : RendezvousRequest) : Except RendezvousErrorCode RequestCandidate := do
  let active ← okOr (s.registry.activeControlSession envelope.target) .peerOffline
  require (supportsV02 active.protocolVersion) .unsupportedPeerVersion
  require (now.unixSecs < envelope.expiresUnixSecs) .expired
  let maxExpiry ← okOr (checkedAdd now.unixSecs c.limits.sessionTtlSecs) .invalidExpiry
  require (envelope.expiresUnixSecs ≤ maxExpiry) .invalidExpiry
  let state ← orFail ((RendezvousState.new envelope.sessionId).request envelope.step envelope.generation) .invalidState
  let consumer := SessionOwner.fromControl authenticated
  let provider := SessionOwner.fromActive active
  let message ← orFail envelope.toProtocolMessage .invalidState
  pure { request, state, consumer, provider, message }

/-- `request` behind the lock, up to the reserved slot. -/
def requestAdmission (s : Server) (envelope : RendezvousEnvelope) (candidate : RequestCandidate) :
    Except RendezvousErrorCode RequestPlan := do
  require (envelope.sessionId ∉ s.state.sessions) .duplicateSession
  require (len s.state.sessions < c.limits.maxSessions ∧
    (s.state.deviceCounts.lookup candidate.consumer.name).getD 0 < c.limits.maxSessionsPerDevice ∧
    (s.state.deviceCounts.lookup candidate.provider.name).getD 0 < c.limits.maxSessionsPerDevice) .capacityReached
  let permit ← reserveTo s.registry candidate.provider
  pure { request := candidate.request, state := candidate.state, consumer := candidate.consumer, provider := candidate.provider,
         message := candidate.message, permit }

/-- Where nothing comes in between, the parts make up the whole. -/
theorem requestPlan_parts (s : Server) (now : Moment) (authenticated : ControlSessionGuard) (envelope : RendezvousEnvelope) :
    c.requestPlan s now authenticated envelope = (do
      let request ← c.requestOrigin s now authenticated envelope
      let candidate ← c.requestProvider s now authenticated envelope request
      c.requestAdmission s envelope candidate) := by
  simp only [requestPlan, requestOrigin, requestProvider, requestAdmission, bind_assoc, pure_bind]

def survivor (session : StoredSession) (authenticated : AuthenticatedClient) : SessionOwner :=
  if session.consumer.Matches authenticated then session.provider else session.consumer

end RendezvousCoordinator

/-- Where the task of a control session stands. It makes one request at a time, and
none while it disconnects. -/
inductive Stage
  | idle
  | checked (envelope : RendezvousEnvelope) (request : RendezvousRequest)
  | found (envelope : RendezvousEnvelope) (candidate : RequestCandidate)
  | admitted (envelope : RendezvousEnvelope) (plan : RequestPlan)
  | opened (plan : RequestPlan)
  | unavailable
  | removing
  | removed
  | released

namespace Stage

/-- The device is no longer shown as available. -/
def Leaving : Stage → Prop
  | unavailable | removing | removed | released => True
  | _ => False

/-- The sessions of the device are removed. -/
def Gone : Stage → Prop
  | removing | removed | released => True
  | _ => False

theorem Gone.leaving {stage : Stage} (h : stage.Gone) : stage.Leaving := by
  cases stage with
  | idle | checked | found | admitted | opened | unavailable => exact absurd h id
  | removing | removed | released => trivial

end Stage

structure ControlTask where
  guard : ControlSessionGuard
  stage : Stage

/-- A session that `remove_device` has taken out of the active records. -/
structure RemovedSession where
  sessionId : SessionId
  incarnation : Nat
  session : StoredSession
  disconnected : AuthenticatedClient

def RemovedSession.key (removed : RemovedSession) : SessionId × Nat := (removed.sessionId, removed.incarnation)

/-- A notice that was queued, and for whom. -/
structure DisconnectNotice where
  about : RemovedSession
  recipient : SessionOwner

/-- The coordinator with the tasks that call it. `holder` has the lock between two
steps of its own; `pending` are the removed sessions whose survivors have yet to be told. -/
structure Departures where
  server : Server
  tasks : AuthenticatedClient → Option ControlTask
  holder : Option AuthenticatedClient
  pending : List RemovedSession
  notices : List DisconnectNotice

/-- The calls of the coordinator other than requests and disconnections, and what
goes on in the queues. -/
def Operation.Background : Operation → Prop
  | .providerDecision .. | .forwardEnvelope .. | .closeSession .. | .forwardRelayFrame .. | .expireNow .. | .enqueue .. | .receive _
  | .closeOutbound _ | .installObservabilitySink => True
  | .request .. | .removeDevice .. | .claim .. | .markUnavailable _ | .finalizeDisconnect .. => False

instance : DecidablePred Operation.Background
  | .providerDecision .. | .forwardEnvelope .. | .closeSession .. | .forwardRelayFrame .. | .expireNow .. | .enqueue .. | .receive _
  | .closeOutbound _ | .installObservabilitySink => isTrue trivial
  | .request .. | .removeDevice .. | .claim .. | .markUnavailable _ | .finalizeDisconnect .. => isFalse id

inductive DepartureLabel
  | claim (now : Moment) (identity : AuthenticatedClient) (outbound : Outbound) (version : ProtocolVersion)
  | check (identity : AuthenticatedClient) (now : Moment) (envelope : RendezvousEnvelope)
  | find (identity : AuthenticatedClient) (now : Moment)
  | reserve (identity : AuthenticatedClient)
  | insert (identity : AuthenticatedClient) (now : Moment)
  | send (identity : AuthenticatedClient)
  | markUnavailable (identity : AuthenticatedClient)
  | removeDevice (identity : AuthenticatedClient) (order : List SessionId)
  | notify (i : Nat) (now : Moment)
  | finishRemoval (identity : AuthenticatedClient)
  | release (identity : AuthenticatedClient) (now : Moment)
  | background (op : Operation)

/-- The steps of a disconnection other than the removal of its sessions. -/
def DepartureLabel.Disconnects : DepartureLabel → Prop
  | .markUnavailable _ | .notify .. | .finishRemoval _ | .release .. => True
  | .claim .. | .check .. | .find .. | .reserve _ | .insert .. | .send _ | .removeDevice .. | .background _ => False

namespace Departures

variable (c : RendezvousCoordinator)

def new (maxClients : Nat) : Departures := ⟨.new maxClients, fun _ => none, none, [], []⟩

def setStage (s : Departures) (task : ControlTask) (stage : Stage) : Departures :=
  { s with tasks := Function.update s.tasks task.guard.identity (some { task with stage }) }

/-- Every control session has an identity of its own, for the sake of its session id. -/
def claim (s : Departures) (now : Moment) (identity : AuthenticatedClient) (outbound : Outbound) (version : ProtocolVersion) :
    Option Departures :=
  match s.tasks identity with
  | some _ => none
  | none =>
      match s.server.registry.claimWithOutbound identity outbound version now.unixMillis with
      | .error _ => some s
      | .ok (guard, registry) => some { s with
          server := { s.server with registry }
          tasks := Function.update s.tasks identity (some ⟨guard, .idle⟩) }

/-- A message for a control session that has been replaced goes to no one. -/
def deliver (registry : ClientRegistry) (permit : Permit) (message : Message) : ClientRegistry :=
  if (registry.byName.lookup permit.identity.name).any fun runtime => runtime.identity = permit.identity then
    registry.trySend permit.identity.name message
  else registry

def noticeFor (r : ClientRegistry) (removed : RemovedSession) : List DisconnectNotice :=
  let recipient := survivor removed.session removed.disconnected
  let peer := if removed.session.consumer = recipient then removed.session.provider.name else removed.session.consumer.name
  match routeTo r recipient (serverNotice removed.session.metadata.sessionId .peerDisconnected (some peer)) with
  | .ok _ => [⟨removed, recipient⟩]
  | .error _ => []

/-- One step of a task. -/
def advance (s : Departures) (task : ControlTask) : DepartureLabel → Option Departures
  | .check _ now envelope =>
      match task.stage with
      | .idle =>
          match c.requestOrigin s.server now task.guard envelope with
          | .ok request => some (s.setStage task (.checked envelope request))
          | .error _ => some s
      | _ => none
  | .find _ now =>
      match task.stage with
      | .checked envelope request =>
          match c.requestProvider s.server now task.guard envelope request with
          | .ok candidate => some (s.setStage task (.found envelope candidate))
          | .error _ => some (s.setStage task .idle)
      | _ => none
  | .reserve _ =>
      match task.stage, s.holder with
      | .found envelope candidate, none =>
          match c.requestAdmission s.server envelope candidate with
          | .ok plan => some { s.setStage task (.admitted envelope plan) with holder := some task.guard.identity }
          | .error _ => some (s.setStage task .idle)
      | _, _ => none
  | .insert _ now =>
      match task.stage with
      | .admitted envelope plan => some { s.setStage task (.opened plan) with
          server := { s.server with
            state := openSession s.server.state (newSession s.server.registry now envelope plan)
            history := s.server.history ++ [s.server.opens envelope task.guard plan.permit now] }
          holder := none }
      | _ => none
  | .send _ =>
      match task.stage with
      | .opened plan => some { s.setStage task .idle with
          server := { s.server with registry := deliver s.server.registry plan.permit plan.message } }
      | _ => none
  | .markUnavailable _ =>
      match task.stage with
      | .idle => some { s.setStage task .unavailable with
          server := { s.server with registry := s.server.registry.markUnavailable task.guard } }
      | _ => none
  | .removeDevice _ order =>
      match task.stage, s.holder with
      | .unavailable, none =>
          if order.Nodup ∧ order.toFinset = s.server.state.sessions.keys then
            let (removed, state) := removeLoop task.guard.identity order s.server.state
            some { s.setStage task .removing with
              server := { s.server with
                state
                history := s.server.history ++ removed.map fun p => .tombstoned p.1 (s.server.incarnation p.1) }
              pending := s.pending ++ removed.map fun p => ⟨p.1, s.server.incarnation p.1, p.2, task.guard.identity⟩ }
          else none
      | _, _ => none
  | .finishRemoval _ =>
      match task.stage with
      | .removing => if ∀ removed ∈ s.pending, removed.disconnected ≠ task.guard.identity then some (s.setStage task .removed) else none
      | _ => none
  | .release _ now =>
      match task.stage with
      | .removed => some { s.setStage task .released with
          server := { s.server with registry := s.server.registry.finalizeDisconnect task.guard now.unixMillis } }
      | _ => none
  | .claim .. | .notify .. | .background _ => none

/-- The survivor of a removed session is told. -/
def notify (s : Departures) (i : Nat) (now : Moment) : Option Departures :=
  s.pending[i]?.map fun removed =>
    let registry := observeP2pClose c s.server.registry removed.session "peer-disconnected" now
    { s with
      server := { s.server with registry := c.disconnectOne removed.disconnected now s.server.registry removed.session }
      pending := s.pending.eraseIdx i
      notices := s.notices ++ noticeFor registry removed }

/-- The other calls take the lock for themselves. -/
def background (s : Departures) (op : Operation) : Option Departures :=
  if op.Background ∧ op.Iterates s.server ∧ s.holder = none then
    (perform c op s.server).map fun p => { s with server := p.2 }
  else none

def next (s : Departures) (l : DepartureLabel) : Option Departures :=
  match l with
  | .claim now identity outbound version => s.claim now identity outbound version
  | .notify i now => s.notify c i now
  | .background op => s.background c op
  | .check identity _ _ | .find identity _ | .reserve identity | .insert identity _ | .send identity | .markUnavailable identity
  | .removeDevice identity _ | .finishRemoval identity | .release identity _ =>
      (s.tasks identity).bind fun task => s.advance c task l

def Step (s : Departures) (l : DepartureLabel) (t : Departures) : Prop := s.next c l = some t

variable {c} {s t : Departures} {l : DepartureLabel}

/-- A step is a claim, a notice, a call of another kind, or a step of one task. -/
theorem step_cases (h : Step c s l t) : (∃ now identity outbound version, s.claim now identity outbound version = some t) ∨
    (∃ i now, s.notify c i now = some t) ∨ (∃ op, s.background c op = some t) ∨
    ∃ identity task, s.tasks identity = some task ∧ s.advance c task l = some t := by
  cases l with
  | claim now identity outbound version => exact .inl ⟨now, identity, outbound, version, h⟩
  | notify i now => exact .inr (.inl ⟨i, now, h⟩)
  | background op => exact .inr (.inr (.inl ⟨op, h⟩))
  | check identity | find identity | reserve identity | insert identity | send identity | markUnavailable identity
  | removeDevice identity | finishRemoval identity | release identity =>
      obtain ⟨task, htask, hadvance⟩ := Option.bind_eq_some_iff.mp h
      exact .inr (.inr (.inr ⟨identity, task, htask, hadvance⟩))

end Departures

end Rustgo.Coordinator
