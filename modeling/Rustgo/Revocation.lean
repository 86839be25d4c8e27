import Rustgo.Authenticator
import Rustgo.EnrollmentRuns
import Rustgo.RegistryRuns

namespace Rustgo.Revocation

open Checks Enrollment Protocol Registry Rendezvous Tables
open Auth (Authenticator KeyFormats PendingAuthentication)

/-- A client of the store at a revision. No function reads which of them a login was checked against. -/
structure Authority where
  client : Nat
  revision : Nat
  deriving DecidableEq

structure Login where
  identity : Auth.AuthenticatedClient
  version : ProtocolVersion
  authority : Option Authority

/-- The state of a connection until its session is claimed. -/
inductive Handshake
  | challenged (pending : PendingAuthentication)
  | authenticated (login : Login)

inductive Mutation
  | rename (newClientId : String)
  | state (enabled : Bool)
  | delete

/-- What the administrator asks for a client, under an id as it stands in the path. -/
structure ClientMutation where
  clientId : String
  mutation : Mutation
  expectedRevision : Nat

namespace ClientMutation

def op (call : ClientMutation) (internalId : String) (clock : SystemTime) : Op :=
  match call.mutation with
  | .rename newClientId => .renameClient internalId newClientId call.expectedRevision clock
  | .state enabled => .setClientEnabled internalId enabled call.expectedRevision clock
  | .delete => .deleteClient internalId call.expectedRevision clock

/-- The sessions of a client that is enabled are left alone. -/
def terminates (call : ClientMutation) : Bool :=
  match call.mutation with
  | .state enabled => !enabled
  | _ => true

def renames (call : ClientMutation) : Bool :=
  match call.mutation with
  | .rename _ => true
  | _ => false

end ClientMutation

/-- A change that is made, before its termination. A termination that the handler makes itself is lost with the handler. -/
structure Change where
  name : String
  renamed : Option (String × Nat)
  detached : Bool
  /-- The client, at the revision that the change has led it to. -/
  reached : Authority
  /-- The number of changes before. -/
  order : Nat

inductive Call
  | found (call : ClientMutation) (internalId : String)
  | changed (change : Change)

structure System where
  store : DynamicClientStore
  authenticator : Authenticator
  guards : GuardSystem
  /-- The generations whose tokens are cancelled. -/
  cancelled : List UInt64
  handshakes : Table Nat Handshake
  calls : Table Nat Call
  /-- What the sessions were checked against. -/
  authorities : List (UInt64 × Authority)
  /-- The changes that were answered with success. -/
  returned : List Authority
  changes : Nat

inductive Action
  | hello (conn : Nat) (hello : ClientHello) (version : ProtocolVersion) (challenge : Option (Vector UInt8 32))
      (random : Option (Vector UInt8 24))
  | authenticate (conn : Nat) (version : ProtocolVersion) (authentication : ClientAuthenticate)
  | claim (conn : Nat) (outbound : Outbound) (nowUnixMillis : UInt64)
  | abandon (conn : Nat)
  | guard (label : GuardLabel)
  | manage (op : Op)
  | lookup (id : Nat) (call : ClientMutation)
  | mutate (id : Nat) (clock : SystemTime)
  | review (id : Nat) (requestId : String) (approve : Bool) (clock : SystemTime) (randomId : String)
  | consume (id : Nat) (encoded publicKey requestId : String) (now : SystemTime)
  | terminate (id : Nat)
  | dropHandler (id : Nat)
  | terminateByName (name : String)

namespace System

def new (store : DynamicClientStore) (authenticator : Authenticator) (maxClients : Nat) : System :=
  ⟨store, authenticator, .new maxClients, [], ∅, ∅, [], [], 0⟩

section Termination

def session (s : System) (name : String) : Option (DeviceName × SessionRuntime) := do
  let device ← (BoundedString.tryFrom maxDeviceNameBytes name).toOption
  let runtime ← s.guards.registry.byName.lookup device
  pure (device, runtime)

def cancel (s : System) (generation : UInt64) : System := { s with cancelled := generation :: s.cancelled }

def terminateByName (s : System) (name : String) : System :=
  match s.session name with
  | none => s
  | some (_, runtime) => s.cancel runtime.observabilityIdentity.generation

def renameNotice (runtime : SessionRuntime) (newName : String) (revision : Nat) : Option Message := do
  let detail ← (BoundedString.tryFrom maxErrorDetailBytes ("identity-renamed:" ++ newName ++ ":" ++ toString revision)).toOption
  let sessionId := if h : runtime.sessionId.length = 32 then ⟨runtime.sessionId.toArray, h⟩ else Vector.replicate 32 0
  pure (.serverNotice ⟨sessionId, 1001, detail, none⟩)

def notifyRenameAndTerminate (s : System) (oldName newName : String) (revision : Nat) : System :=
  match s.session oldName with
  | none => s
  | some (device, runtime) =>
      let registry := (renameNotice runtime newName revision).elim s.guards.registry (s.guards.registry.trySend device)
      { s with guards := { s.guards with registry } }.cancel runtime.observabilityIdentity.generation

def finishChange (s : System) (change : Change) : System :=
  match change.renamed with
  | none => s.terminateByName change.name
  | some (newName, revision) => s.notifyRenameAndTerminate change.name newName revision

end Termination

section Handshakes

variable (keys : KeyFormats)

/-- The row that a key is checked against, unless the configuration has it. -/
def authority (s : System) (pending : PendingAuthentication) (authentication : ClientAuthenticate) : Option Authority := do
  let key ← Auth.Authenticator.presentedKey keys authentication
  match s.authenticator.staticIdentity pending.clientName key with
  | some _ => none
  | none =>
      let row ← s.store.queryKey (Auth.displayKey keys key)
      pure ⟨row.serial, row.revision⟩

def hello (s : System) (conn : Nat) (hello : ClientHello) (version : ProtocolVersion) (challenge : Option (Vector UInt8 32))
    (random : Option (Vector UInt8 24)) : System :=
  let (begun, authenticator) := s.authenticator.begin hello version challenge random
  match begun with
  | .error _ => { s with authenticator }
  | .ok pending => { s with authenticator, handshakes := s.handshakes.insert conn (.challenged pending) }

def authenticate (s : System) (conn : Nat) (pending : PendingAuthentication) (version : ProtocolVersion)
    (authentication : ClientAuthenticate) : System :=
  if version = pending.version then
    match s.authenticator.finish keys (some s.store) pending authentication with
    | .error _ => { s with handshakes := s.handshakes.erase conn }
    | .ok identity => { s with
        handshakes := s.handshakes.insert conn
          (.authenticated ⟨identity, pending.version, s.authority keys pending authentication⟩) }
  else { s with handshakes := s.handshakes.erase conn }

def deviceIdentity (identity : Auth.AuthenticatedClient) : Option AuthenticatedClient := do
  let name ← (BoundedString.tryFrom maxDeviceNameBytes identity.name).toOption
  pure ⟨name, identity.fingerprint, identity.sessionId⟩

def claim (s : System) (conn : Nat) (login : Login) (outbound : Outbound) (nowUnixMillis : UInt64) : System :=
  let closed := { s with handshakes := s.handshakes.erase conn }
  match deviceIdentity login.identity with
  | none => closed
  | some identity =>
      match s.guards.registry.claimWithOutbound identity outbound login.version nowUnixMillis with
      | .error _ => closed
      | .ok (guard, _) => { closed with
          guards := s.guards.claim identity outbound login.version nowUnixMillis
          authorities := (login.authority.map (guard.observabilityIdentity.generation, ·)).toList ++ s.authorities }

/-- The guard whose token a step cancels. -/
def cancels : GuardLabel → Option Nat
  | .markUnavailable i => some i
  | .drop i _ _ => some i
  | _ => none

def guardStep (s : System) (label : GuardLabel) : Option System :=
  match label with
  | .claim _ _ _ _ => none
  | label => (s.guards.next label).map fun guards =>
      let cancelled := (cancels label).bind fun i => s.guards.leases[i]?
      { s with guards, cancelled := (cancelled.map Lease.generation).toList ++ s.cancelled }

end Handshakes

section Management

variable (formats : Formats)

/-- What changes no client that can log in. -/
def ordinary : Op → Bool
  | .renameClient _ _ _ _ => false
  | .setClientEnabled _ _ _ _ => false
  | .deleteClient _ _ _ => false
  | .consumeToken _ _ _ _ => false
  | .reviewApproval _ _ _ _ => false
  | _ => true

def lookup (s : System) (id : Nat) (call : ClientMutation) : System :=
  match s.store.clientByDisplayId call.clientId with
  | .ok (some client) => { s with calls := s.calls.insert id (.found call client.internalId) }
  | _ => s

/-- The name is looked up as it was given, whatever the client is called. -/
def mutate (s : System) (id : Nat) (call : ClientMutation) (internalId : String) (clock : SystemTime) : Option System :=
  match s.store.attempt formats (call.op internalId clock) with
  | .error _ => some { s with calls := s.calls.erase id }
  | .ok (_, store) => do
      let row ← store.queryRow internalId
      let change : Change := {
        name := call.clientId
        renamed := if call.renames then some (row.displayId, row.revision) else none
        detached := false
        reached := ⟨row.serial, row.revision⟩
        order := s.changes }
      let calls := if call.terminates then s.calls.insert id (.changed change) else s.calls.erase id
      pure { s with store, calls, changes := s.changes + 1 }

/-- The client of an approval that is approved once more. -/
def repeated (store : DynamicClientStore) (requestId : String) (approve : Bool) : Option Authority := do
  let r ← store.queryRequest requestId
  if approve ∧ r.status = .approved ∧ r.targetId.isSome then
    (store.queryNormalized r.displayId).map fun row => ⟨row.serial, row.revision⟩
  else none

def review (s : System) (id : Nat) (requestId : String) (approve : Bool) (clock : SystemTime) (randomId : String) : Option System :=
  match s.store.reviewApproval requestId approve clock randomId with
  | .error _ => some s
  | .ok (none, store) => some { s with store, returned := (repeated s.store requestId approve).toList ++ s.returned }
  | .ok (some result, store) => do
      let row ← store.queryNormalized result.displayId
      let change : Change := ⟨result.displayId, none, true, ⟨row.serial, result.revision⟩, s.changes⟩
      pure { s with store, calls := s.calls.insert id (.changed change), changes := s.changes + 1 }

def consume (s : System) (id : Nat) (encoded publicKey requestId : String) (now : SystemTime) : Option System :=
  match s.store.consumeToken formats encoded publicKey requestId now with
  | .error _ => some s
  | .ok (result, store) => do
      let row ← store.queryNormalized result.displayId
      let change : Change := ⟨result.displayId, none, true, ⟨row.serial, result.revision⟩, s.changes⟩
      let calls := if formats.decodeKey encoded = some .reEnroll then s.calls.insert id (.changed change) else s.calls
      pure { s with store, calls, changes := s.changes + 1 }

def finish (s : System) (id : Nat) (change : Change) : System :=
  { s.finishChange change with calls := s.calls.erase id, returned := change.reached :: s.returned }

end Management

def next (keys : KeyFormats) (formats : Formats) (s : System) : Action → Option System
  | .hello conn hello version challenge random =>
      if conn ∈ s.handshakes then none else some (s.hello conn hello version challenge random)
  | .authenticate conn version authentication =>
      match s.handshakes.lookup conn with
      | some (.challenged pending) => some (s.authenticate keys conn pending version authentication)
      | _ => none
  | .claim conn outbound nowUnixMillis =>
      match s.handshakes.lookup conn with
      | some (.authenticated login) => some (s.claim conn login outbound nowUnixMillis)
      | _ => none
  | .abandon conn => some { s with handshakes := s.handshakes.erase conn }
  | .guard label => s.guardStep label
  | .manage op => if ordinary op then some { s with store := (s.store.perform formats op).2 } else none
  | .lookup id call => if id ∈ s.calls then none else some (s.lookup id call)
  | .mutate id clock =>
      match s.calls.lookup id with
      | some (.found call internalId) => s.mutate formats id call internalId clock
      | _ => none
  | .review id requestId approve clock randomId =>
      if id ∈ s.calls then none else s.review id requestId approve clock randomId
  | .consume id encoded publicKey requestId now =>
      if id ∈ s.calls then none else s.consume formats id encoded publicKey requestId now
  | .terminate id =>
      match s.calls.lookup id with
      | some (.changed change) => some (s.finish id change)
      | _ => none
  | .dropHandler id =>
      match s.calls.lookup id with
      | some (.changed change) => if change.detached then some { s with calls := s.calls.erase id } else none
      | _ => none
  | .terminateByName name => some (s.terminateByName name)

def Step (keys : KeyFormats) (formats : Formats) (s : System) (a : Action) (t : System) : Prop := s.next keys formats a = some t

end System

end Rustgo.Revocation
