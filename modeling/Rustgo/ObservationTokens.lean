import Rustgo.BucketTable
import Rustgo.RegistryGuards

namespace Rustgo.Observation

open Protocol Registry Tables
open Bindings (latestInstant)

def MAX_PENDING_OBSERVATION_TOKENS : Nat := 65536
def MAX_TRACKED_OBSERVATION_SUBJECTS : Nat := 65536
def MAX_OBSERVATION_BURST : Nat := 65536
def TOKEN_GENERATION_ATTEMPTS : Nat := 16
def OBSERVATION_TOKEN_BYTES : Nat := 32
def OBSERVATION_NONCE_BYTES : Nat := 16
def SESSION_ID_BYTES : Nat := 32
def SESSION_RANDOM_BYTES : Nat := SESSION_ID_BYTES - 8

def second : Nat := 1000000000

structure ObservationRuntimeLimits where
  tokenTtl : Nat
  maxPendingTokens : Nat
  maxTrackedIps : Nat
  maxTrackedDevices : Nat
  perIpBurst : Nat
  perDeviceBurst : Nat
  refillInterval : Nat
  testSendDelay : Nat

namespace ObservationRuntimeLimits

def default : ObservationRuntimeLimits :=
  ⟨30 * second, 4096, 16384, 4096, 32, 8, second, 0⟩

/-- The two clocks are read during the check. -/
def IsValid (limits : ObservationRuntimeLimits) (now : Nat) (unixNow : Int) : Prop :=
  limits.tokenTtl ≠ 0 ∧ 2 ≤ limits.maxPendingTokens ∧ limits.maxPendingTokens ≤ MAX_PENDING_OBSERVATION_TOKENS ∧
    0 < limits.maxTrackedIps ∧ limits.maxTrackedIps ≤ MAX_TRACKED_OBSERVATION_SUBJECTS ∧
    0 < limits.maxTrackedDevices ∧ limits.maxTrackedDevices ≤ MAX_TRACKED_OBSERVATION_SUBJECTS ∧
    (1 ≤ limits.perIpBurst ∧ limits.perIpBurst ≤ MAX_OBSERVATION_BURST) ∧
    (1 ≤ limits.perDeviceBurst ∧ limits.perDeviceBurst ≤ MAX_OBSERVATION_BURST) ∧
    limits.refillInterval ≠ 0 ∧ limits.testSendDelay ≤ 60 * second ∧
    now + limits.tokenTtl ≤ latestInstant ∧ now + limits.refillInterval ≤ latestInstant ∧
    now + limits.testSendDelay ≤ latestInstant ∧ unixNow + limits.tokenTtl ≤ latestInstant

instance (limits : ObservationRuntimeLimits) (now : Nat) (unixNow : Int) : Decidable (limits.IsValid now unixNow) :=
  inferInstanceAs (Decidable (_ ∧ _))

end ObservationRuntimeLimits

abbrev ObservationToken := Vector UInt8 OBSERVATION_TOKEN_BYTES

abbrev ObservationNonce := Vector UInt8 OBSERVATION_NONCE_BYTES

inductive ObservationEndpoint
  | primary
  | alternate
  deriving DecidableEq

structure ObservationProbe where
  token : ObservationToken
  nonce : ObservationNonce
  deriving DecidableEq

structure ObservationGrant where
  primaryToken : ObservationToken
  alternateToken : ObservationToken
  expiresUnixSecs : Nat
  deriving DecidableEq

inductive ObservationIssueError
  | inactiveSession
  | capacityReached
  | entropy
  | invalidLifetime
  | internal
  deriving DecidableEq

/-- `issue` is the number under which the token was issued. -/
structure PendingToken where
  identity : AuthenticatedClient
  endpoint : ObservationEndpoint
  expiresAt : Nat
  issue : Nat
  deriving DecidableEq

/-- When a token issued now expires, on both clocks. -/
def lifetime (limits : ObservationRuntimeLimits) (now : Nat) (unixNow : Int) : Except ObservationIssueError (Nat × Nat) :=
  if latestInstant < now + limits.tokenTtl then .error .invalidLifetime
  else if latestInstant < unixNow + limits.tokenTtl ∨ unixNow + limits.tokenTtl < 0 then .error .invalidLifetime
  else .ok (now + limits.tokenTtl, (unixNow + limits.tokenTtl).toNat / second)

/-- Tries one random token after the other; a draw can fail. -/
def issueUniqueToken (pending : Table ObservationToken PendingToken) (excluded : Option ObservationToken) :
    List (Option ObservationToken) → Option ObservationToken
  | some bytes :: draws =>
      if bytes ∉ pending ∧ excluded ≠ some bytes then some bytes else issueUniqueToken pending excluded draws
  | _ => none

structure ObservationState where
  pending : Table ObservationToken PendingToken
  globalIpAdmission : TokenBucket
  ipBuckets : BucketTable IpAddr
  deviceBuckets : BucketTable String

namespace ObservationState

def default (now : Nat) : ObservationState := ⟨∅, .new 0 now, .default, .default⟩

def retainLive (state : ObservationState) (now : Nat) : ObservationState :=
  { state with pending := keep (fun _ entry => decide (now < entry.expiresAt)) state.pending }

/-- What `issue` does under the lock, with the draws for both tokens. -/
def issue (state : ObservationState) (limits : ObservationRuntimeLimits) (identity : AuthenticatedClient)
    (now expiresAt expiresUnixSecs number : Nat) (primaryDraws alternateDraws : List (Option ObservationToken)) :
    Except ObservationIssueError ObservationGrant × ObservationState :=
  let state := state.retainLive now
  if limits.maxPendingTokens - 2 < len state.pending then (.error .capacityReached, state)
  else
    match issueUniqueToken state.pending none (primaryDraws.take TOKEN_GENERATION_ATTEMPTS) with
    | none => (.error .entropy, state)
    | some primary =>
        match issueUniqueToken state.pending (some primary) (alternateDraws.take TOKEN_GENERATION_ATTEMPTS) with
        | none => (.error .entropy, state)
        | some alternate =>
            (.ok ⟨primary, alternate, expiresUnixSecs⟩, { state with
              pending := (state.pending.insert primary ⟨identity, .primary, expiresAt, number⟩).insert alternate
                ⟨identity, .alternate, expiresAt, number + 1⟩ })

/-- The decision of the limiter on a source address. -/
def admitSource (state : ObservationState) (limits : ObservationRuntimeLimits) (sourceIp : IpAddr) (now : Nat) :
    Bool × ObservationState :=
  if u32Max < limits.maxTrackedIps then (false, state)
  else
    let (admission, ipBuckets, globalIpAdmission) := state.ipBuckets.allowNewSource (canonicalIp sourceIp) limits.maxTrackedIps
      limits.perIpBurst limits.refillInterval now state.globalIpAdmission limits.maxTrackedIps
    (admission.allowed, { state with ipBuckets := ipBuckets, globalIpAdmission := globalIpAdmission })

/-- What `authorize_probe` does under the lock for the first time. -/
def redeem (state : ObservationState) (limits : ObservationRuntimeLimits) (probe : ObservationProbe)
    (endpoint : ObservationEndpoint) (sourceIp : IpAddr) (now : Nat) : Option PendingToken × ObservationState :=
  let (allowed, state) := state.admitSource limits sourceIp now
  if allowed = false then (none, state)
  else
    match state.pending.lookup probe.token with
    | none => (none, state)
    | some entry =>
        if entry.endpoint ≠ endpoint then (none, state)
        else
          let state := { state with pending := state.pending.erase probe.token }
          if entry.expiresAt ≤ now then (none, state) else (some entry, state)

/-- What it does under the lock for the second time. -/
def admitDevice (state : ObservationState) (limits : ObservationRuntimeLimits) (fingerprint : String) (now : Nat) :
    Bool × ObservationState :=
  let (admission, deviceBuckets) := state.deviceBuckets.allow fingerprint limits.maxTrackedDevices limits.perDeviceBurst
    limits.refillInterval now
  (admission.allowed, { state with deviceBuckets := deviceBuckets })

end ObservationState

/-- A token as it was issued, and the number of the session it was issued to. -/
structure Issue where
  lease : Nat
  identity : AuthenticatedClient
  endpoint : ObservationEndpoint
  token : ObservationToken
  expiresAt : Nat

/-- A call between two of its steps. `live` tells whether the session of the
token was still available when the registry was asked. -/
inductive Call
  | stamping (lease : Nat) (identity : AuthenticatedClient)
  | issuing (lease : Nat) (identity : AuthenticatedClient) (now expiresAt expiresUnixSecs : Nat)
  | probing (probe : ObservationProbe) (endpoint : ObservationEndpoint) (sourceIp : IpAddr) (now : Nat)
  | redeemed (probe : ObservationProbe) (endpoint : ObservationEndpoint) (now : Nat) (pending : PendingToken)
  | rechecked (probe : ObservationProbe) (endpoint : ObservationEndpoint) (now : Nat) (pending : PendingToken) (live : Bool)
  deriving DecidableEq

/-- A probe that was answered; its nonce is returned. -/
structure Authorization where
  probe : ObservationProbe
  endpoint : ObservationEndpoint
  now : Nat
  issue : Nat
  live : Bool

/-- `authenticated` holds the clients that have yet to claim their session;
`issued` and `authorized` record what was issued and what was answered. -/
structure System where
  limits : ObservationRuntimeLimits
  guards : GuardSystem
  nextSessionSequence : Nat
  authenticated : List AuthenticatedClient
  state : ObservationState
  calls : List Call
  now : Nat
  issued : List Issue
  authorized : List Authorization

/-- `resume` continues a call; the clock and the draws are for an issue. -/
inductive Label
  | authenticate (name : DeviceName) (fingerprint : String) (random : Vector UInt8 SESSION_RANDOM_BYTES)
  | session (l : GuardLabel)
  | request (lease : Nat)
  | probe (probe : ObservationProbe) (endpoint : ObservationEndpoint) (sourceIp : IpAddr)
  | resume (call : Call) (unixNow : Int) (primaryDraws alternateDraws : List (Option ObservationToken))
  | pass (nanoseconds : Nat)

namespace System

def bind (limits : ObservationRuntimeLimits) (maxClients now : Nat) (unixNow : Int) : Option System :=
  if limits.IsValid now unixNow then
    some ⟨limits, .new maxClients, 0, [], .default now, [], now, [], []⟩
  else none

def sessionId (random : Vector UInt8 SESSION_RANDOM_BYTES) (sequence : Nat) : Bytes := random.toList ++ be 8 sequence

/-- The session that a token was issued to is neither marked nor over. -/
def sessionLive (s : System) (issue : Nat) : Bool :=
  s.issued[issue]?.any fun issue => s.guards.leases[issue.lease]?.any fun lease =>
    lease.guard.identity = issue.identity ∧ lease.unavailable = false

def resume (s : System) (unixNow : Int) (primaryDraws alternateDraws : List (Option ObservationToken)) : Call → System
  | .stamping lease identity =>
      match lifetime s.limits s.now unixNow with
      | .error _ => s
      | .ok (expiresAt, expiresUnixSecs) => { s with calls := .issuing lease identity s.now expiresAt expiresUnixSecs :: s.calls }
  | .issuing lease identity now expiresAt expiresUnixSecs =>
      match s.state.issue s.limits identity now expiresAt expiresUnixSecs s.issued.length primaryDraws alternateDraws with
      | (.error _, state) => { s with state := state }
      | (.ok grant, state) => { s with
          state := state
          issued := s.issued ++ [⟨lease, identity, .primary, grant.primaryToken, expiresAt⟩,
            ⟨lease, identity, .alternate, grant.alternateToken, expiresAt⟩] }
  | .probing probe endpoint sourceIp now =>
      match s.state.redeem s.limits probe endpoint sourceIp now with
      | (none, state) => { s with state := state }
      | (some pending, state) => { s with state := state, calls := .redeemed probe endpoint now pending :: s.calls }
  | .redeemed probe endpoint now pending =>
      if s.guards.registry.isActiveSession pending.identity then
        { s with calls := .rechecked probe endpoint now pending (s.sessionLive pending.issue) :: s.calls }
      else s
  | .rechecked probe endpoint now pending live =>
      match s.state.admitDevice s.limits pending.identity.fingerprint now with
      | (false, state) => { s with state := state }
      | (true, state) => { s with
          state := state
          authorized := s.authorized ++ [⟨probe, endpoint, now, pending.issue, live⟩] }

def next (s : System) : Label → Option System
  | .authenticate name fingerprint random =>
      if s.nextSessionSequence + 1 < 2 ^ 64 then
        some { s with
          nextSessionSequence := s.nextSessionSequence + 1
          authenticated := ⟨name, fingerprint, sessionId random s.nextSessionSequence⟩ :: s.authenticated }
      else some s
  | .session l =>
      match l with
      | .claim identity _ _ _ =>
          if identity ∈ s.authenticated then
            (s.guards.next l).map fun guards => { s with guards := guards, authenticated := s.authenticated.erase identity }
          else none
      | _ => (s.guards.next l).map fun guards => { s with guards := guards }
  | .request i =>
      (s.guards.leases[i]?.filter (!·.dropped)).map fun lease =>
        if s.guards.registry.isActiveSession lease.guard.identity then
          { s with calls := .stamping i lease.guard.identity :: s.calls }
        else s
  | .probe probe endpoint sourceIp => some { s with calls := .probing probe endpoint sourceIp s.now :: s.calls }
  | .resume call unixNow primaryDraws alternateDraws =>
      if call ∈ s.calls then
        some (({ s with calls := s.calls.erase call } : System).resume unixNow primaryDraws alternateDraws call)
      else none
  | .pass nanoseconds => some { s with now := s.now + nanoseconds }

def Step (s : System) (l : Label) (t : System) : Prop := s.next l = some t

end System

end Rustgo.Observation
