import Rustgo.Orchestration

namespace Rustgo.Orchestration

open Checks Coordinator Path Protocol Rendezvous Tables

structure ObservationGrant where
  expiresUnixSecs : UInt64
  deriving DecidableEq

inductive ControlEvent
  | rendezvous (envelope : RendezvousEnvelope)
  | peerIdentityBinding (binding : PeerIdentityBinding)
  | peerRelayFrame (frame : PeerRelayFrame)
  | serverNotice (notice : ServerNotice)
  | observationGrant (grant : ObservationGrant)
  | punchGrant (grant : PunchGrant)
  deriving DecidableEq

/-- How the host answers to binding the socket of an observation. -/
inductive BindResult
  | bound (address : SocketAddress)
  | addrInUse
  | failed
  deriving DecidableEq

/-- The handle that a selected path brings. -/
inductive PathHandle
  | tcp
  | quic
  | other
  deriving DecidableEq

def sessionTtlSecs : UInt64 := 25
def controlReconnectGrace : Nat := 15 * second

variable (runtime : Runtime)

section Open

def beginOpen (now : Moment) (id : SessionId) (peer exportName : String) (resolveOnly : Bool) (reply : Nat) :
    Act Unit := do
  let available ← .read fun s => .ok s.controlAvailable
  if available = false then emit (.replied reply (.error .reconnecting))
  else if (runtime.p2p.any P2pConfig.enabled) = false then emit (.replied reply (.error .p2pDisabled))
  else do
    let expiry := saturatingAdd now.unixSecs sessionTtlSecs
    let requested ← .read fun _ => orFail (BoundedString.tryFrom maxExportNameBytes exportName) .invalid
    let envelope ← .read fun s => signedEnvelope runtime s id peer 1 expiry (.request ⟨requested⟩)
    insertSession id fun s epoch => initiatorSession runtime s epoch peer exportName expiry resolveOnly reply
    if resolveOnly then pure () else requestObservation runtime id
    sendEnvelope envelope

end Open

section Observation

def setCachedObservedIp (cached : Option SocketAddress) (session : Session) : Session :=
  { session with cachedTcpObservedIp := cached.map (⟨·, session.epoch⟩) }

def setObserved (socket : SocketAddress) (addresses : List (Stamped SocketAddress)) (session : Session) : Session :=
  { session with
    quicSocket := some socket
    observedUdp := addresses }

/-- The ports are taken: only native TCP is offered, with an address seen before. -/
def useCachedIp (now : Moment) (id : SessionId) : Act Unit := do
  let ip ← .read fun _ => runtime.localIp
  let cache ← .read fun s => .ok s.observedIpCache
  editSession id (setCachedObservedIp (cachedObservedIp cache ip now.unixSecs))
  sendCandidates runtime id
  ensureDirect runtime id

def startObservation (id : SessionId) (grant : ObservationGrant) (socket : SocketAddress) : Act Unit := do
  let session ← getSession id
  .update fun s =>
    { s with observations := s.observations ++ [⟨id, session.epoch, grant.expiresUnixSecs, socket⟩] }

/-- The first waiter gets the grant, whether its session is still there or not. -/
def serveWaiter (now : Moment) (bind : BindResult) (grant : ObservationGrant) (id : SessionId) : Act Unit := do
  .update fun s => { s with observationWaiters := s.observationWaiters.tail }
  noteGranted (some id)
  let _ ← getSession id
  match bind with
  | .addrInUse => useCachedIp runtime now id
  | .failed => refuse .system
  | .bound socket => startObservation id grant socket

def handleObservationGrant (now : Moment) (bind : BindResult) (grant : ObservationGrant) : Act Unit :=
  if grant.expiresUnixSecs ≤ now.unixSecs then do
    noteGranted none
    refuse .expiredGrant
  else if runtime.observationEndpoints = none then noteGranted none
  else do
    let waiters ← .read fun s => .ok s.observationWaiters
    match waiters with
    | [] => do
        noteGranted none
        refuse .invalid
    | id :: _ => serveWaiter runtime now bind grant id

def cacheAddresses (expires : UInt64) (cache : List ObservedIpCacheEntry) (addresses : List SocketAddress) :
    List ObservedIpCacheEntry :=
  addresses.foldl
    (fun cache address => (cache.filter fun entry => !sameAddressFamily entry.address address) ++ [⟨address, expires⟩])
    cache

def cacheExpiry (now : Moment) (observation : Observation) (session : Option Session) : UInt64 :=
  min (min observation.grantExpiresUnixSecs (session.elim now.unixSecs Session.expiry)) (saturatingAdd now.unixSecs 30)

/-- Without addresses the cache serves; when the host has no address the error
leaves the loop, and the actor with it. -/
def recordObserved (now : Moment) (observation : Observation) (addresses : List SocketAddress) : Act Unit := do
  let found ← .read fun s => .ok (s.sessions.lookup observation.sessionId)
  .update fun s =>
    { s with observedIpCache := cacheAddresses (cacheExpiry now observation found) s.observedIpCache addresses }
  match found with
  | none => pure ()
  | some _ => do
      editSession observation.sessionId (setObserved observation.socket (addresses.map (⟨·, observation.epoch⟩)))
      if addresses ≠ [] then pure ()
      else do
        let ip ← .attempt fun s => (runtime.localIp.toOption).map fun ip => (ip, s)
        let cache ← .read fun s => .ok s.observedIpCache
        editSession observation.sessionId (setCachedObservedIp (cachedObservedIp cache ip now.unixSecs))

/-- The result of an observation task; a failed one changes nothing. -/
def observationResult (now : Moment) (index : Nat) (addresses : Option (List SocketAddress)) : Act Unit := do
  let observation ← .read fun s => okOr s.observations[index]? .invalid
  .update fun s => { s with observations := s.observations.eraseIdx index }
  match addresses with
  | none => pure ()
  | some addresses => do
      recordObserved runtime now observation addresses
      sendCandidates runtime observation.sessionId
      ensureDirect runtime observation.sessionId

end Observation

section Punch

def setPunchGrant (grant : PunchGrant) (session : Session) : Session := { session with punchGrant := some grant }

/-- The grant is of this generation, its timing is sane, and it names the candidate sets both sides have. -/
def punchGrantFits (session : Session) (grant : PunchGrant) : Bool :=
  let digests := match session.role with
    | .initiator => (grant.initiatorCandidatesSha256, grant.responderCandidatesSha256)
    | .responder => (grant.responderCandidatesSha256, grant.initiatorCandidatesSha256)
  grant.generation = session.generation.value && grant.windowMillis ≠ 0 && decide (grant.windowMillis ≤ 5000) &&
    decide (10 ≤ grant.cadenceMillis) && decide (grant.cadenceMillis ≤ 250) &&
    session.localCandidatesDigest.map Stamped.value = some digests.1 &&
    session.peerCandidatesDigest.map FromPeer.value = some digests.2

def handlePunchGrant (grant : PunchGrant) : Act Unit := do
  let id : SessionId := ⟨grant.sessionId⟩
  let found ← .read fun s => .ok (s.sessions.lookup id)
  match found with
  | none => pure ()
  | some session =>
      if punchGrantFits session grant = false then pure ()
      else do
        editSession id (setPunchGrant grant)
        ensureDirect runtime id

end Punch

section Events

/-- A full queue of the worker is an error; a frame without a worker is dropped. -/
def handleRelayFrame (queueFull : Bool) (frame : PeerRelayFrame) : Act Unit := do
  let found ← .read fun s => .ok ((s.sessions.lookup frame.sessionId).bind Session.worker)
  match found with
  | none => pure ()
  | some _ => if queueFull then refuse .relayQueueFull else emit (.delivered frame)

def handleEvent (now : Moment) (bind : BindResult) (queueFull : Bool) : ControlEvent → Act Unit
  | .rendezvous envelope => handleEnvelope runtime now envelope
  | .peerIdentityBinding binding => handleBinding runtime binding
  | .peerRelayFrame frame => handleRelayFrame queueFull frame
  | .serverNotice notice => failSession ⟨notice.sessionId⟩ (.serverRejected notice.code)
  | .observationGrant grant => handleObservationGrant runtime now bind grant
  | .punchGrant grant => handlePunchGrant runtime grant

end Events

section Paths

def takeDirectAttempt (session : Session) : Session := { session with directAttempt := none }

def setRelayReady (session : Session) : Session := { session with relayReady := true }

def setManager (session : Session) : Session := { session with manager := true }

def recordPath (now : Moment) (exportName : String) (kind : PathKindStatus) : Act Unit :=
  .update fun s => { s with pathStatus := s.pathStatus.record exportName ⟨kind, now.unixMillis⟩ }

def removePath (exportName : String) : Act Unit := .update fun s => { s with pathStatus := s.pathStatus.remove exportName }

def startPathManager (now : Moment) (id : SessionId) : Act Unit := do
  let p2p ← .read fun _ => okOr runtime.p2p .invalid
  let session ← getSession id
  .read fun _ => require (session.manager = false) .invalid
  editSession id setRelayReady
  recordPath now session.exportName .relay
  .read fun _ => require (p2p.reconnectTimeoutSecs ≠ 0) .invalid
  editSession id setManager
  if p2p.preferDirect then do
    editSession id takeDirectAttempt
    emit (.connecting id (session.directAttempt.map Stamped.value))
  else emit (.connecting id none)

def setRecheckReply (reply : Nat) (session : Session) : Session := { session with recheckReply := some reply }

/-- The checks under which `begin_recheck` goes on. -/
def recheckDue (now : Moment) (requested : UInt64) (cancelled : Bool) (session : Session) : Bool :=
  saturatingAdd requested 1 = saturatingAdd session.generation.value 1 &&
    decide (saturatingAdd session.generation.value 1 ≤ 32) && decide (now.unixSecs < session.expiry) && !cancelled &&
    session.recheckReply.isNone

def beginRecheck (now : Moment) (id : SessionId) (requested : UInt64) (cancelled : Bool) (reply : Nat) : Act Unit := do
  let session ← getSession id
  if recheckDue now requested cancelled session = false then emit (.rechecked reply (.error .cancelled))
  else if session.role = .responder then editSession id (setRecheckReply reply)
  else do
    let next ← .read fun _ => okOr (CandidateGeneration.new (saturatingAdd session.generation.value 1)) .invalid
    enterGeneration id (advanceInitiator runtime next reply)
    requestObservation runtime id
    sendCandidates runtime id

def candidateTransport : PathKind → CandidateTransport
  | .quicV6 | .quicV4 => .quicUdp
  | .nativeTcp => .nativeTcp
  | .relay => .relay

def setSelectedKind (kind : PathKind) (session : Session) : Session := { session with selectedKind := some kind }

/-- A direct path of a later generation only serves connections to come. -/
def promotionOnly (session : Session) (kind : PathKind) : Bool :=
  kind.isDirect && session.generation ≠ .INITIAL && session.worker.isSome

def selectRelay (id : SessionId) (session : Session) : Act Unit := do
  editSession id fun session => takeReply (setSelectedKind .relay session)
  .read fun _ => require (session.relayReady = true) .invalid
  emit (.relaySelected id session.reply)

def selectDirect (id : SessionId) (kind : PathKind) (handle : PathHandle) (session : Session) : Act Unit := do
  editSession id takeReply
  if session.relayReady then emit (.relayRejected id) else pure ()
  editSession id (setSelectedKind kind)
  match handle with
  | .other => refuse .invalid
  | .tcp | .quic => emit (.carrying id kind session.reply)

/-- The initiator alone reports the selection to the server. -/
def reportSelection (id : SessionId) (kind : PathKind) : Act Unit := do
  let session ← getSession id
  if session.role = .initiator then
    sendPayload runtime id (.connectivityResult ⟨true, some (candidateTransport kind), none⟩)
  else pure ()

def pathSelected (now : Moment) (id : SessionId) (kind : PathKind) (handle : PathHandle) : Act Unit := do
  let found ← .read fun s => .ok (s.sessions.lookup id)
  if found.any (promotionOnly · kind) then
    .read fun _ => require ((found.bind Session.protocol) ≠ none) .invalid
  else do
    reportSelection runtime id kind
    let session ← getSession id
    .read fun _ => require (session.protocol ≠ none) .invalid
    recordPath now session.exportName kind.status
    if kind = .relay then selectRelay id session else selectDirect id kind handle session

def handleDirectResult (now : Moment) (id : SessionId) : Except PathError (PathKind × PathHandle) → Act Unit
  | .error _ => do
      let found ← .read fun s => .ok (s.sessions.lookup id)
      match found with
      | some session => do
          recordPath now session.exportName .relay
          ensureRelayRequest runtime id
      | none => ensureRelayRequest runtime id
  | .ok (kind, handle) => pathSelected runtime now id kind handle

/-- A recheck found a direct path for the connections to come. -/
def promote (now : Moment) (id : SessionId) (kind : PathKind) : Act Unit := do
  let found ← .read fun s => .ok (s.sessions.lookup id)
  match found with
  | some session => if session.protocol.isSome && kind.isDirect then recordPath now session.exportName kind.status else pure ()
  | none => pure ()

/-- The close bears the initial generation: the session is gone when it is signed. -/
def finishSession (id : SessionId) : Act Unit := do
  let found ← .read fun s => .ok (s.sessions.lookup id)
  match found with
  | none => pure ()
  | some session => do
      .update fun s => s.drop id
      removePath session.exportName
      answer session.reply (.error .closed)
      let current ← .read fun s => .ok (s.controlAvailable && session.authorityGeneration = s.generation)
      if current then
        .ignoring do
          let envelope ← .read fun s =>
            signedEnvelope runtime s id session.peer session.nextStep session.expiry (.close ⟨none⟩)
          sendEnvelope envelope
      else pure ()

end Paths

section Control

def controlAttached (generation : UInt64) (version : ProtocolVersion) : Act Unit := do
  .read fun s => require (s.generation < generation) .invalid
  .update fun s =>
    { s with
      generation := generation
      version := version
      room := none
      outbox := []
      controlAvailable := true
      detachedDeadline := none
      trace := { s.trace with requested := [], granted := [] } }

/-- Fails the sessions of the list that satisfy the condition. -/
def failAll (p : Session → Bool) (error : IoError) : List SessionId → Act Unit
  | [] => pure ()
  | id :: rest => do
      let found ← .read fun s => .ok (s.sessions.lookup id)
      if found.any p then failSession id error else pure ()
      failAll p error rest

def expireSessions (now : Moment) (order : List SessionId) : Act Unit :=
  failAll (fun session => session.expiry ≤ now.unixSecs) .sessionExpired order

def reconnectGrace : Nat :=
  max (runtime.p2p.elim second fun p2p => p2p.reconnectTimeoutSecs * second) controlReconnectGrace

def controlDependent (session : Session) : Bool := !session.selectedKind.any PathKind.isDirect

def detachControl (now : Moment) (generation : UInt64) (order : List SessionId) : Act Unit := do
  let current ← .read fun s => .ok (s.controlAvailable && s.generation = generation)
  if current = false then pure ()
  else do
    .update fun s =>
      { s with
        controlAvailable := false
        detachedDeadline := some (now.instant + reconnectGrace runtime) }
    failAll controlDependent .controlLost order

def expireControlGrace (now : Moment) (order : List SessionId) : Act Unit := do
  let elapsed ← .read fun s => .ok (!s.controlAvailable && s.detachedDeadline.any (· ≤ now.instant))
  if elapsed = false then pure ()
  else do
    .update fun s => { s with detachedDeadline := none }
    failAll (fun _ => true) .graceExpired order

def removeCancelled (s : Actor) : Actor := { s with sessions := keep (fun _ session => !session.cancelled) s.sessions }

end Control

/-- What reaches the actor, with what the host and the clocks answer while it is handled. -/
inductive Input
  | opening (id : SessionId) (peer exportName : String) (resolveOnly : Bool) (reply : Nat)
  | event (generation : UInt64) (event : ControlEvent) (bind : BindResult) (queueFull : Bool)
  | controlAttached (generation : UInt64) (version : ProtocolVersion)
  | controlDetached (generation : UInt64) (order : List SessionId)
  | pathSelected (id : SessionId) (result : Except PathError (PathKind × PathHandle))
  | promoted (id : SessionId) (kind : PathKind)
  | sessionFinished (id : SessionId)
  | relayAuthenticated (id : SessionId)
  | buildRecheck (id : SessionId) (generation : UInt64) (cancelled : Bool) (reply : Nat)
  | observationResult (index : Nat) (addresses : Option (List SocketAddress))
  | sweep (order : List SessionId)
  deriving DecidableEq

def handleInput (now : Moment) : Input → Act Unit
  | .opening id peer exportName resolveOnly reply => beginOpen runtime now id peer exportName resolveOnly reply
  | .event generation event bind queueFull => do
      let current ← .read fun s => .ok (s.controlAvailable && s.generation = generation)
      if current then handleEvent runtime now bind queueFull event else pure ()
  | .controlAttached generation version => controlAttached generation version
  | .controlDetached generation order => detachControl runtime now generation order
  | .pathSelected id result => handleDirectResult runtime now id result
  | .promoted id kind => promote now id kind
  | .sessionFinished id => finishSession runtime id
  | .relayAuthenticated id => startPathManager runtime now id
  | .buildRecheck id generation cancelled reply => beginRecheck runtime now id generation cancelled reply
  | .observationResult index addresses => observationResult runtime now index addresses
  | .sweep order => do
      expireSessions now order
      expireControlGrace now order

/-- The loop of the actor, and what its surroundings do to it. -/
inductive Label
  | input (now : Moment) (input : Input)
  | cancelCaller (id : SessionId)
  | sever (room : Nat)
  | transmit
  deriving DecidableEq

def setCancelled (session : Session) : Session := { session with cancelled := true }

/-- A drawn session id is new, and a sweep goes through every session. -/
def Input.Possible (s : Actor) : Input → Prop
  | .opening id _ _ _ _ => s.sessions.lookup id = none ∧ ∀ envelope ∈ s.trace.sent, envelope.sessionId ≠ id
  | .controlDetached _ order | .sweep order => ∀ id, id ∈ s.sessions → id ∈ order
  | .observationResult index _ => index < s.observations.length
  | _ => True

instance (s : Actor) (i : Input) : Decidable (i.Possible s) :=
  match i with
  | .opening id _ _ _ _ =>
      inferInstanceAs (Decidable (s.sessions.lookup id = none ∧ ∀ envelope ∈ s.trace.sent, envelope.sessionId ≠ id))
  | .controlDetached _ order | .sweep order =>
      decidable_of_iff (∀ id ∈ s.sessions.keys, id ∈ order) (by simp only [Finmap.mem_keys]; rfl)
  | .observationResult index _ => inferInstanceAs (Decidable (index < s.observations.length))
  | .event _ _ _ _ | .controlAttached _ _ | .pathSelected _ _ | .promoted _ _ | .sessionFinished _ | .relayAuthenticated _
  | .buildRecheck _ _ _ _ => inferInstanceAs (Decidable True)

/-- A result is only logged, and cancelled sessions go after every input. -/
def next (s : Actor) : Label → Option Actor
  | .input now input => if input.Possible s then (handleInput runtime now input s).map fun p => removeCancelled p.2 else none
  | .cancelCaller id => (s.sessions.lookup id).bind fun session =>
      if session.role = .initiator then some (s.put id (setCancelled session)) else none
  | .sever room => if s.room.all (room ≤ ·) then some { s with room := some room } else none
  | .transmit => if s.outbox = [] then none else some { s with outbox := s.outbox.tail }

def Step (s : Actor) (l : Label) (t : Actor) : Prop := next runtime s l = some t

end Rustgo.Orchestration
