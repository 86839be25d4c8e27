import Rustgo.CoordinatorRoutes

namespace Rustgo.Coordinator

open Checks Protocol Registry Rendezvous Tables

namespace RendezvousCoordinator

variable (c : RendezvousCoordinator)

def expireOne (now : Moment) (r : ClientRegistry) (session : StoredSession) : ClientRegistry :=
  let r := observeP2pClose c r session "expired" now
  let r := sendServerNotice r session session.consumer .expired
  sendServerNotice r session session.provider .expired

def expireSessionsBatch (now : Moment) : Op Unit := do
  let removed ← .attempt fun s => do
    let (removed, state) ← s.state.expireLoop now.unixSecs expiryMaintenanceBatch
    pure (removed, { s with state })
  .update fun s => { s with registry := removed.foldl (c.expireOne now) s.registry }

/-- The session that takes the frame, or nothing for a frame that comes after the close. -/
def relaySession (s : Server) (authenticated : ControlSessionGuard) (frame : PeerRelayFrame) :
    Except RendezvousErrorCode (Option StoredSession) :=
  match s.state.sessions.lookup frame.sessionId with
  | some (.active session) => .ok (some session)
  | some (.tombstone tombstone) =>
      if tombstone.consumer.Matches authenticated.identity ∨ tombstone.provider.Matches authenticated.identity then
        .ok none
      else .error .notParticipant
  | none => .error .unknownSession

def FlagsMatch (flags : PeerRelayFlags) (datagram : Bool) : Prop :=
  if datagram then flags.bits = PeerRelayFlags.DATAGRAM.bits
  else flags.bits = PeerRelayFlags.RELIABLE.bits ∨
    flags.bits = (PeerRelayFlags.bitor .RELIABLE .FIN).bits

instance : (flags : PeerRelayFlags) → (datagram : Bool) → Decidable (FlagsMatch flags datagram)
  | _, true => inferInstanceAs (Decidable (_ = _))
  | _, false => inferInstanceAs (Decidable (_ ∨ _))

def relayTarget (session : StoredSession) (authenticated : ControlSessionGuard) (frame : PeerRelayFrame) :
    Except RendezvousErrorCode SessionOwner := do
  require (session.state.phase = .accepted) .invalidState
  let target ← opposite session authenticated.identity
  require session.relay.Authorized .invalidState
  let datagram ← okOr session.relay.datagram .invalidState
  require (FlagsMatch frame.flags datagram) .capacityReached
  pure target

def addTraffic (consumer : Bool) (bytes : UInt64) (counters : TrafficCounters) : TrafficCounters :=
  if consumer then { counters with sentBytes := saturatingAdd counters.sentBytes bytes }
  else { counters with receivedBytes := saturatingAdd counters.receivedBytes bytes }

/-- The first records of a relayed session are not application payload. -/
def countTraffic (session : StoredSession) (authenticated : ControlSessionGuard) (frame : PeerRelayFrame) :
    StoredSession :=
  let consumer : Bool := session.consumer.Matches authenticated.identity
  if consumer ∧ 0 < session.fallbackConsumerInternalFramesRemaining then
    { session with
      fallbackConsumerInternalFramesRemaining := session.fallbackConsumerInternalFramesRemaining - 1 }
  else if ¬consumer ∧ 0 < session.fallbackProviderInternalFramesRemaining then
    { session with
      fallbackProviderInternalFramesRemaining := session.fallbackProviderInternalFramesRemaining - 1 }
  else
    let bytes := UInt64.ofNat (frame.ciphertext.bytes.length - peerAeadTagBytes)
    match session.observedPath with
    | some .p2pFallback => { session with
        pendingRelayTraffic := addTraffic consumer bytes session.pendingRelayTraffic }
    | none => { session with
        pendingPreselectionRelayTraffic := addTraffic consumer bytes session.pendingPreselectionRelayTraffic }
    | some .p2pDirect | some .relay => session

def relayFrame (now : Moment) (authenticated : ControlSessionGuard) (frame : PeerRelayFrame)
    (session : StoredSession) : Op Unit := do
  let target ← .read fun _ => relayTarget session authenticated frame
  let admission := session.relay.admitFrame now frame.ciphertext.bytes.length
  let session := { session with relay := admission.2 }
  .update fun s => { s with state := s.state.putSession frame.sessionId session }
  .read fun _ => require (admission.1 = true) .capacityReached
  let message ← .read fun _ => orFail (relayMessage frame) .invalidState
  let permit ← .read fun s => reserveTo s.registry target
  .update fun s =>
    if s.registry.observabilityEnabled then
      { s with state := s.state.putSession frame.sessionId (countTraffic session authenticated frame) }
    else s
  permit.send message
  note frame.sessionId fun k =>
    .relayed ⟨k, frame, authenticated.identity, permit.identity, now, session.relay.windowStarted⟩

def forwardRelayFrame (now : Moment) (authenticated : ControlSessionGuard) (frame : PeerRelayFrame) : Op Unit := do
  .read fun s => require (s.registry.isActiveSession authenticated.identity = true) .identityMismatch
  c.expireSessionsBatch now
  let session ← .read fun s => relaySession s authenticated frame
  match session with
  | none => pure ()
  | some session => relayFrame now authenticated frame session

def flushSession (now : Moment) (session : StoredSession) : StoredSession × List ObservationEvent :=
  if observabilityFlushInterval ≤ now.instant - session.lastObservabilityFlush then
    ({ session with pendingRelayTraffic := .default, lastObservabilityFlush := now.instant },
      (p2pTrafficEvent c session session.pendingRelayTraffic).toList)
  else (session, [])

/-- `order` lists the sessions as the map is iterated. -/
def flushLoop (now : Moment) : List SessionId → CoordinatorState → List ObservationEvent × CoordinatorState
  | [], s => ([], s)
  | sessionId :: order, s =>
      match s.activeSession sessionId with
      | none => flushLoop now order s
      | some session =>
          let (session, events) := c.flushSession now session
          let (rest, s) := flushLoop now order (s.putSession sessionId session)
          (events ++ rest, s)

def flushObservabilityDue (now : Moment) (order : List SessionId) : Op Unit :=
  .update fun s =>
    if s.registry.observabilityEnabled then
      let (events, state) := c.flushLoop now order s.state
      { s with state, registry := tryObserveAll s.registry events }
    else s

def expireNow (now : Moment) (order : List SessionId) : Op Unit := do
  c.expireSessionsBatch now
  c.flushObservabilityDue now order

def Owns (authenticated : AuthenticatedClient) (session : StoredSession) : Prop :=
  session.consumer.Matches authenticated ∨ session.provider.Matches authenticated

instance (authenticated : AuthenticatedClient) (session : StoredSession) : Decidable (Owns authenticated session) :=
  inferInstanceAs (Decidable (_ ∨ _))

/-- Entombs the sessions of a device that are in `order`, and returns them. -/
def removeLoop (authenticated : AuthenticatedClient) :
    List SessionId → CoordinatorState → List (SessionId × StoredSession) × CoordinatorState
  | [], s => ([], s)
  | sessionId :: order, s =>
      match s.activeSession sessionId with
      | none => removeLoop authenticated order s
      | some session =>
          if Owns authenticated session then
            let (removed, s) := removeLoop authenticated order (s.tombstoneSession sessionId).1
            ((sessionId, session) :: removed, s)
          else removeLoop authenticated order s

def disconnectOne (authenticated : AuthenticatedClient) (now : Moment) (r : ClientRegistry) (session : StoredSession) :
    ClientRegistry :=
  let survivor := if session.consumer.Matches authenticated then session.provider else session.consumer
  sendServerNotice (observeP2pClose c r session "peer-disconnected" now) session survivor .peerDisconnected

def removeDevice (now : Moment) (authenticated : AuthenticatedClient) (order : List SessionId) : Op Unit :=
  .update fun s =>
    let (removed, state) := removeLoop authenticated order s.state
    { s with
      state
      registry := (removed.map Prod.snd).foldl (c.disconnectOne authenticated now) s.registry
      history := s.history ++ removed.map fun p => .tombstoned p.1 (s.incarnation p.1) }

end RendezvousCoordinator

end Rustgo.Coordinator
