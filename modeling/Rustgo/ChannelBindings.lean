import Rustgo.Checks
import Rustgo.ProtocolMessage
import Rustgo.Tables

namespace Rustgo.Bindings

open Protocol Tables

def BINDING_TOKEN_BYTES : Nat := 32
def MAX_TOKEN_GENERATION_ATTEMPTS : Nat := 16

/-- Instants and durations count nanoseconds; the seconds of an instant are a signed 64-bit number. -/
def latestInstant : Nat := 2 ^ 63 * 1000000000 - 1

inductive Transport
  | tcp
  | udp
  deriving DecidableEq

inductive ChannelKind
  | tcp (tunnelId : UInt32) (connectionId : UInt64)
  | udp (tunnelId : UInt32) (channelId : UInt64)
  deriving DecidableEq

def ChannelKind.new (transport : Transport) (tunnelId : UInt32) (targetId : UInt64) : ChannelKind :=
  match transport with
  | .tcp => .tcp tunnelId targetId
  | .udp => .udp tunnelId targetId

abbrev Slot := Transport × UInt64

/-- Where the opener of a channel waits for it: the tunnel is not part of the key. -/
def ChannelKind.slot : ChannelKind → Slot
  | .tcp _ connectionId => (.tcp, connectionId)
  | .udp _ channelId => (.udp, channelId)

structure Token where
  bytes : Bytes
  exactly : bytes.length = BINDING_TOKEN_BYTES
  deriving DecidableEq

def Token.tryFrom (bytes : Bytes) : Option Token :=
  if h : bytes.length = BINDING_TOKEN_BYTES then some ⟨bytes, h⟩ else none

theorem Token.tryFrom_eq_some {bytes : Bytes} {token : Token} : Token.tryFrom bytes = some token ↔ token.bytes = bytes := by
  obtain ⟨own, hown⟩ := token
  rw [Token.tryFrom]
  split
  · exact ⟨fun h => (congrArg Token.bytes (Option.some.inj h)).symm, fun h => by subst h; rfl⟩
  · next hnot =>
    refine ⟨fun h => ?_, ?_⟩
    · cases h
    · rintro rfl
      exact absurd hown hnot

inductive BindingError
  | invalidConfiguration
  | capacityReached
  | entropyUnavailable
  | rejected
  deriving DecidableEq

structure PendingBinding where
  channelKind : ChannelKind
  expiresAt : Nat
  deriving DecidableEq

structure ChannelBinding where
  clientId : String
  sessionId : Bytes
  channelKind : ChannelKind
  deriving DecidableEq

structure ChannelBindingStore where
  clientId : String
  sessionId : Bytes
  capacity : Nat
  timeToLive : Nat
  pending : Table Token PendingBinding

namespace ChannelBindingStore

def new (clientId : String) (sessionId : Bytes) (capacity timeToLive now : Nat) : Except BindingError ChannelBindingStore :=
  if clientId = "" ∨ maxClientNameBytes < clientId.utf8ByteSize ∨ sessionId = [] ∨ maxSessionIdBytes < sessionId.length ∨
      capacity = 0 ∨ timeToLive = 0 ∨ latestInstant < now + timeToLive then .error .invalidConfiguration
  else .ok ⟨clientId, sessionId, capacity, timeToLive, ∅⟩

/-- Tries one random token after the other; a draw can fail. -/
def draw (store : ChannelBindingStore) (binding : PendingBinding) :
    List (Option Token) → Except BindingError Token × ChannelBindingStore
  | some token :: draws =>
      if token ∈ store.pending then store.draw binding draws
      else (.ok token, { store with pending := store.pending.insert token binding })
  | _ => (.error .entropyUnavailable, store)

def retainLive (store : ChannelBindingStore) (now : Nat) : ChannelBindingStore :=
  { store with pending := keep (fun _ binding => decide (now < binding.expiresAt)) store.pending }

def issue (store : ChannelBindingStore) (channelKind : ChannelKind) (now : Nat) (draws : List (Option Token)) :
    Except BindingError Token × ChannelBindingStore :=
  let store := store.retainLive now
  if store.capacity ≤ len store.pending then (.error .capacityReached, store)
  else if latestInstant < now + store.timeToLive then (.error .invalidConfiguration, store)
  else store.draw ⟨channelKind, now + store.timeToLive⟩ (draws.take MAX_TOKEN_GENERATION_ATTEMPTS)

def recognizes (store : ChannelBindingStore) (token : Bytes) : Bool := (Token.tryFrom token).any (· ∈ store.pending)

def revoke (store : ChannelBindingStore) (channelKind : ChannelKind) (token : Bytes) : ChannelBindingStore :=
  match Token.tryFrom token with
  | some token =>
      if (store.pending.lookup token).any (·.channelKind = channelKind) then { store with pending := store.pending.erase token }
      else store
  | none => store

/-- The token is gone before the presentation is checked. -/
def redeem (store : ChannelBindingStore) (clientId : String) (sessionId : Bytes) (channelKind : ChannelKind) (token : Bytes)
    (now : Nat) : Except BindingError ChannelBinding × ChannelBindingStore :=
  match (Token.tryFrom token).bind fun token => (store.pending.lookup token).map fun pending => (token, pending) with
  | some (token, pending) =>
      let store := { store with pending := store.pending.erase token }
      if pending.expiresAt ≤ now ∨ clientId ≠ store.clientId ∨ sessionId ≠ store.sessionId ∨ channelKind ≠ pending.channelKind then
        (.error .rejected, store)
      else (.ok ⟨store.clientId, store.sessionId, channelKind⟩, store)
  | none => (.error .rejected, store)

end ChannelBindingStore

/-- An opener that waits for its data channel, at the receiving end of `destination`. -/
structure PendingOpen where
  channelKind : ChannelKind
  bindingToken : Token
  destination : Nat
  deriving DecidableEq

/-- `pending` stands for both maps of waiting openers, one for each transport. -/
structure SessionBindings where
  store : ChannelBindingStore
  pending : Table Slot PendingOpen

/-- What was issued with a token; the issues are numbered like the destinations. -/
structure Issue where
  channelKind : ChannelKind
  token : Token
  expiresAt : Nat
  deriving DecidableEq

structure AuthenticatedDataChannel where
  request : DataChannelBind
  protocolVersion : ProtocolVersion
  binding : ChannelBinding
  destination : Nat
  authenticatedAt : Nat
  deriving DecidableEq

/-- `cancelled` tells that `cancel` has returned; `issued` and `authenticated`
record what was issued and authenticated for the session. -/
structure SessionRuntime where
  client : String
  sessionId : Bytes
  protocolVersion : ProtocolVersion
  bindings : SessionBindings
  available : Bool
  cancelled : Bool
  issued : List Issue
  authenticated : List AuthenticatedDataChannel

namespace SessionRuntime

def new (store : ChannelBindingStore) (protocolVersion : ProtocolVersion) : SessionRuntime :=
  ⟨store.clientId, store.sessionId, protocolVersion, ⟨store, ∅⟩, true, false, [], []⟩

/-- One turn of the loop of `prepare_tcp` and `prepare_udp`, which draws another
target id after a turn without effect. -/
def prepare (r : SessionRuntime) (transport : Transport) (tunnelId : UInt32) (targetId : UInt64) (now : Nat)
    (draws : List (Option Token)) : SessionRuntime :=
  let channelKind := ChannelKind.new transport tunnelId targetId
  if targetId = 0 ∨ (transport, targetId) ∈ r.bindings.pending then r
  else
    match r.bindings.store.issue channelKind now draws with
    | (.error _, store) => { r with bindings := { r.bindings with store := store } }
    | (.ok token, store) => { r with
        bindings := ⟨store, r.bindings.pending.insert (transport, targetId) ⟨channelKind, token, r.issued.length⟩⟩
        issued := r.issued ++ [⟨channelKind, token, now + store.timeToLive⟩] }

def prepareTcp (r : SessionRuntime) (tunnelId : UInt32) (connectionId : UInt64) (now : Nat) (draws : List (Option Token)) :
    SessionRuntime :=
  r.prepare .tcp tunnelId connectionId now draws

def prepareUdp (r : SessionRuntime) (tunnelId : UInt32) (channelId : UInt64) (now : Nat) (draws : List (Option Token)) :
    SessionRuntime :=
  r.prepare .udp tunnelId channelId now draws

def cancelWaiting (r : SessionRuntime) (slot : Slot) : SessionRuntime :=
  match r.bindings.pending.lookup slot with
  | some pending => { r with
      bindings := ⟨r.bindings.store.revoke pending.channelKind pending.bindingToken.bytes, r.bindings.pending.erase slot⟩ }
  | none => r

def cancelPending (r : SessionRuntime) (connectionId : UInt64) : SessionRuntime := r.cancelWaiting (.tcp, connectionId)

def cancelPendingUdp (r : SessionRuntime) (channelId : UInt64) : SessionRuntime := r.cancelWaiting (.udp, channelId)

def requestKind (request : DataChannelBind) : ChannelKind :=
  .new (if request.kind.value = 1 then .tcp else .udp) request.tunnelId request.targetId

def redeemIfPresent (r : SessionRuntime) (request : DataChannelBind) (protocolVersion : ProtocolVersion) (now : Nat) :
    Option (Except BindingError (ChannelBinding × Nat)) × SessionRuntime :=
  let channelKind := requestKind request
  if r.bindings.store.recognizes request.bindingToken.bytes = false then (none, r)
  else if protocolVersion ≠ r.protocolVersion then (some (.error .rejected), r)
  else
    match r.bindings.store.redeem request.clientName.str request.sessionId.bytes channelKind request.bindingToken.bytes now with
    | (.error e, store) => (some (.error e), { r with bindings := { r.bindings with store := store } })
    | (.ok binding, store) =>
        match r.bindings.pending.lookup channelKind.slot with
        | none => (some (.error .rejected), { r with bindings := { r.bindings with store := store } })
        | some pending =>
            let r := { r with bindings := ⟨store, r.bindings.pending.erase channelKind.slot⟩ }
            if pending.channelKind ≠ channelKind then (some (.error .rejected), r)
            else (some (.ok (binding, pending.destination)), r)

/-- The rest of `authenticate_data_channel`, once the runtime was found. -/
def authenticate (r : SessionRuntime) (request : DataChannelBind) (protocolVersion : ProtocolVersion) (now : Nat) : SessionRuntime :=
  match r.redeemIfPresent request protocolVersion now with
  | (some (.ok (binding, destination)), r) =>
      { r with authenticated := r.authenticated ++ [⟨request, protocolVersion, binding, destination, now⟩] }
  | (_, r) => r

def markUnavailable (r : SessionRuntime) : SessionRuntime := { r with available := false }

/-- The second half of `cancel`, which takes the maps and revokes their tokens in
the order in which they yield them. -/
def revokeWaiting (r : SessionRuntime) (order : List Slot) : SessionRuntime :=
  { r with
    bindings := ⟨order.foldl (fun store slot =>
      match r.bindings.pending.lookup slot with
      | some pending => store.revoke pending.channelKind pending.bindingToken.bytes
      | none => store) r.bindings.store, ∅⟩
    cancelled := true }

end SessionRuntime

/-- A binding attempt that has found its runtime available. -/
structure Attempt where
  runtime : Nat
  request : DataChannelBind
  protocolVersion : ProtocolVersion
  deriving DecidableEq

structure System where
  runtimes : List SessionRuntime
  byName : Table String Nat
  attempts : List Attempt
  now : Nat

inductive Label
  | claim (client : String) (sessionId : Bytes) (protocolVersion : ProtocolVersion) (capacity timeToLive : Nat)
  | release (client : String)
  | prepareTcp (i : Nat) (tunnelId : UInt32) (connectionId : UInt64) (draws : List (Option Token))
  | prepareUdp (i : Nat) (tunnelId : UInt32) (channelId : UInt64) (draws : List (Option Token))
  | cancelPending (i : Nat) (connectionId : UInt64)
  | cancelPendingUdp (i : Nat) (channelId : UInt64)
  | attempt (request : DataChannelBind) (protocolVersion : ProtocolVersion)
  | redeem (attempt : Attempt)
  | markUnavailable (i : Nat)
  | revokeWaiting (i : Nat) (order : List Slot)
  | pass (nanoseconds : Nat)

namespace System

def new : System := ⟨[], ∅, [], 0⟩

def modify (s : System) (i : Nat) (f : SessionRuntime → SessionRuntime) : Option System :=
  s.runtimes[i]?.map fun r => { s with runtimes := s.runtimes.set i (f r) }

def next (s : System) : Label → Option System
  | .claim client sessionId protocolVersion capacity timeToLive =>
      if client ∈ s.byName then some s
      else
        match ChannelBindingStore.new client sessionId capacity timeToLive s.now with
        | .ok store => some { s with
            runtimes := s.runtimes ++ [.new store protocolVersion]
            byName := s.byName.insert client s.runtimes.length }
        | .error _ => some s
  | .release client => some { s with byName := s.byName.erase client }
  | .prepareTcp i tunnelId connectionId draws => s.modify i fun r => r.prepareTcp tunnelId connectionId s.now draws
  | .prepareUdp i tunnelId channelId draws => s.modify i fun r => r.prepareUdp tunnelId channelId s.now draws
  | .cancelPending i connectionId => s.modify i fun r => r.cancelPending connectionId
  | .cancelPendingUdp i channelId => s.modify i fun r => r.cancelPendingUdp channelId
  | .attempt request protocolVersion =>
      match s.byName.lookup request.clientName.str with
      | none => some s
      | some i =>
          match s.runtimes[i]? with
          | none => none
          | some r =>
              if r.sessionId = request.sessionId.bytes ∧ r.available then
                some { s with attempts := ⟨i, request, protocolVersion⟩ :: s.attempts }
              else some s
  | .redeem attempt =>
      if attempt ∈ s.attempts then
        ({ s with attempts := s.attempts.erase attempt }).modify attempt.runtime fun r =>
          r.authenticate attempt.request attempt.protocolVersion s.now
      else none
  | .markUnavailable i => s.modify i SessionRuntime.markUnavailable
  | .revokeWaiting i order =>
      (s.runtimes[i]?.filter fun r => !r.available && decide (order.toFinset = r.bindings.pending.keys)).bind fun _ =>
        s.modify i fun r => r.revokeWaiting order
  | .pass nanoseconds => some { s with now := s.now + nanoseconds }

def Step (s : System) (l : Label) (t : System) : Prop := s.next l = some t

end System

end Rustgo.Bindings
