import Rustgo.Coordinator

namespace Rustgo.Coordinator

open Checks Protocol Registry Rendezvous Tables

/-- An envelope that was put into the queue of `recipient`. The sessions that
bear one id are numbered by `incarnation`. -/
structure Forwarded where
  incarnation : Nat
  envelope : RendezvousEnvelope
  sender : AuthenticatedClient
  recipient : AuthenticatedClient
  moment : Moment
  deriving DecidableEq

structure Relayed where
  incarnation : Nat
  frame : PeerRelayFrame
  sender : AuthenticatedClient
  recipient : AuthenticatedClient
  moment : Moment
  windowStarted : Nat
  deriving DecidableEq

inductive HistoryEvent
  | forwarded (event : Forwarded)
  | relayed (event : Relayed)
  | tombstoned (sessionId : SessionId) (incarnation : Nat)
  deriving DecidableEq

def Forwarded.IsRequest (event : Forwarded) : Prop := ∃ value, event.envelope.payload = .request value

instance (event : Forwarded) : Decidable event.IsRequest :=
  match h : event.envelope.payload with
  | .request value => isTrue ⟨value, h⟩
  | .providerDecision _ | .candidateSet _ | .candidateSetV2 _ | .connectivityResult _ | .relayRequest _
  | .close _ | .error _ => isFalse (fun ⟨_, h'⟩ => nomatch h.symm.trans h')

def HistoryEvent.Opens (sessionId : SessionId) : HistoryEvent → Prop
  | .forwarded event => event.IsRequest ∧ event.envelope.sessionId = sessionId
  | _ => False

instance (sessionId : SessionId) : DecidablePred (HistoryEvent.Opens sessionId)
  | .forwarded _ => inferInstanceAs (Decidable (_ ∧ _))
  | .relayed _ | .tombstoned _ _ => inferInstanceAs (Decidable False)

/-- The registry, the state behind the coordinator's lock, and a record of what happened. -/
structure Server where
  registry : ClientRegistry
  state : CoordinatorState
  history : List HistoryEvent

def Server.incarnation (s : Server) (sessionId : SessionId) : Nat :=
  s.history.countP (HistoryEvent.Opens sessionId ·)

abbrev Op (α : Type) := Call RendezvousErrorCode Server α

/-- Adds an event to the record, given the present incarnation of the session. -/
def note (sessionId : SessionId) (event : Nat → HistoryEvent) : Op Unit :=
  .update fun s => { s with history := s.history ++ [event (s.incarnation sessionId)] }

def v02 : ProtocolVersion := ⟨1, 1⟩

def supportsV02 (version : ProtocolVersion) : Prop := version.major = v02.major ∧ v02.minor ≤ version.minor

instance (version : ProtocolVersion) : Decidable (supportsV02 version) := inferInstanceAs (Decidable (_ ∧ _))

def validateOrigin (s : Server) (now : Moment) (authenticated : ControlSessionGuard) (envelope : RendezvousEnvelope) :
    Except RendezvousErrorCode Unit := do
  require (s.registry.isActiveSession authenticated.identity ∧ envelope.sender = authenticated.identity.name ∧
    envelope.version = authenticated.protocolVersion) .identityMismatch
  require (supportsV02 envelope.version) .unsupportedPeerVersion
  require (now.unixSecs < envelope.expiresUnixSecs) .expired

def activeRoute (r : ClientRegistry) (owner : SessionOwner) : Except RendezvousErrorCode ActiveControlSession := do
  let active ← okOr (r.activeControlSession owner.name) .peerOffline
  require (owner.Matches active.identity) .peerOffline
  pure active

def routeTo (r : ClientRegistry) (owner : SessionOwner) (message : Message) :
    Except RendezvousErrorCode ClientRegistry := do
  let active ← activeRoute r owner
  require active.outbound.HasRoom .deliveryUnavailable
  pure (r.trySend active.identity.name message)

/-- A reserved slot in the queue of a control session. -/
structure Permit where
  identity : AuthenticatedClient

def reserveTo (r : ClientRegistry) (owner : SessionOwner) : Except RendezvousErrorCode Permit := do
  let active ← activeRoute r owner
  require active.outbound.HasRoom .deliveryUnavailable
  pure ⟨active.identity⟩

def Permit.send (permit : Permit) (message : Message) : Op Unit :=
  .update fun s => { s with registry := s.registry.trySend permit.identity.name message }

def opposite (session : StoredSession) (authenticated : AuthenticatedClient) :
    Except RendezvousErrorCode SessionOwner :=
  if session.consumer.Matches authenticated then .ok session.provider
  else if session.provider.Matches authenticated then .ok session.consumer
  else .error .notParticipant

def otherParticipant (session : StoredSession) (authenticated : AuthenticatedClient) (claimedTarget : DeviceName) :
    Except RendezvousErrorCode SessionOwner := do
  let target ← opposite session authenticated
  require (target.name = claimedTarget) .identityMismatch
  pure target

def serverNotice (sessionId : SessionId) (code : RendezvousErrorCode) (peer : Option DeviceName) : Message :=
  .serverNotice ⟨sessionId.bytes, code.asU16, ⟨code.detail, code.detail_bounded⟩,
    peer.map fun name => ⟨name.str, name.bounded⟩⟩

/-- A notice that cannot be queued is dropped. -/
def sendServerNotice (r : ClientRegistry) (session : StoredSession) (target : SessionOwner)
    (code : RendezvousErrorCode) : ClientRegistry :=
  let peer := if session.consumer = target then session.provider.name else session.consumer.name
  match routeTo r target (serverNotice session.metadata.sessionId code (some peer)) with
  | .ok r => r
  | .error _ => r

def hexDigit (n : Nat) : Char := if n < 10 then Char.ofNat (48 + n) else Char.ofNat (87 + n)

/-- The first eight bytes of the digest of the id, in hexadecimal. -/
def shortSessionId (sha256 : Bytes → Vector UInt8 32) (sessionId : SessionId) : String :=
  String.ofList (((sha256 sessionId.bytes.toList).toList.take 8).flatMap fun b =>
    [hexDigit (b.toNat / 16), hexDigit (b.toNat % 16)])

section Observations

variable (c : RendezvousCoordinator)

def observedP2pSessionId (sessionId : SessionId) : String := shortSessionId c.sha256 sessionId

def observeP2pOpen (session : StoredSession) (path : SessionPath) (now : Moment) : ObservationEvent :=
  .p2pSessionOpened session.consumer.observabilityIdentity (observedP2pSessionId c session.metadata.sessionId)
    session.provider.name.str (some session.metadata.exportName.str) path now.unixMillis

def p2pTrafficEvent (session : StoredSession) (counters : TrafficCounters) : Option ObservationEvent :=
  if counters = .default then none
  else some (.byteCounterDelta session.consumer.observabilityIdentity
    (some (observedP2pSessionId c session.metadata.sessionId)) counters)

def tryObserveAll (r : ClientRegistry) (events : List ObservationEvent) : ClientRegistry :=
  events.foldl ClientRegistry.tryObserve r

def observeP2pClose (r : ClientRegistry) (session : StoredSession) (reason : String) (now : Moment) : ClientRegistry :=
  let r := tryObserveAll r (p2pTrafficEvent c session session.pendingRelayTraffic).toList
  if session.observedPath.isSome then
    r.tryObserve (.p2pSessionClosed session.consumer.observabilityIdentity
      (observedP2pSessionId c session.metadata.sessionId) now.unixMillis (some reason))
  else r

end Observations

namespace CoordinatorState

def incrementDeviceCount (counts : Table DeviceName Nat) (device : DeviceName) : Table DeviceName Nat :=
  counts.insert device ((counts.lookup device).getD 0 + 1)

/-- No result is an underflow. -/
def decrementDeviceCount (counts : Table DeviceName Nat) (device : DeviceName) : Option (Table DeviceName Nat) :=
  match counts.lookup device with
  | none => some counts
  | some 0 => none
  | some (count + 1) => some (if count = 0 then counts.erase device else counts.insert device count)

def decrementRecordCounts (counts : Table DeviceName Nat) (record : SessionRecord) :
    Option (Table DeviceName Nat) := do
  let counts ← decrementDeviceCount counts record.devices.1
  decrementDeviceCount counts record.devices.2

def tombstoneSession (s : CoordinatorState) (sessionId : SessionId) : CoordinatorState × Option StoredSession :=
  match s.sessions.lookup sessionId with
  | some (.active session) =>
      ({ s with sessions := s.sessions.insert sessionId (.tombstone (.fromSession session)) }, some session)
  | _ => (s, none)

def putSession (s : CoordinatorState) (sessionId : SessionId) (session : StoredSession) : CoordinatorState :=
  { s with sessions := s.sessions.insert sessionId (.active session) }

def activeSession (s : CoordinatorState) (sessionId : SessionId) : Option StoredSession :=
  (s.sessions.lookup sessionId).bind SessionRecord.active?

/-- The bounded loop over the expiry heap, with the sessions that it removed. -/
def expireLoop (now : UInt64) : Nat → CoordinatorState → Option (List StoredSession × CoordinatorState)
  | 0, s => some ([], s)
  | n + 1, s =>
      match s.expiry.peek with
      | none => some ([], s)
      | some next =>
          if now < next.expiresUnixSecs then some ([], s)
          else
            let s := { s with expiry := s.expiry.pop }
            match s.sessions.lookup next.sessionId with
            | none => expireLoop now n s
            | some record =>
                if record.expiresUnixSecs = next.expiresUnixSecs then do
                  let deviceCounts ← decrementRecordCounts s.deviceCounts record
                  let (removed, s) ← expireLoop now n
                    { s with sessions := s.sessions.erase next.sessionId, deviceCounts }
                  pure (record.active?.toList ++ removed, s)
                else expireLoop now n s

end CoordinatorState

end Rustgo.Coordinator
