import Mathlib
import Rustgo.EnrollmentStore

namespace Rustgo.Enrollment

open Checks Rows

/-- What a request for approval comes to. The answers for the administrator to decide are errors for the device. -/
inductive ApprovalAnswer
  | approved (result : EnrollmentResult)
  | pending (replacing : Bool)

def ApprovalAnswer.result : ApprovalAnswer → Except EnrollmentStoreError EnrollmentResult
  | .approved result => .ok result
  | .pending true => .error .replacementApprovalPending
  | .pending false => .error .approvalPending

structure ApprovalRequest where
  name : String
  uid : Option String
  profile : Bool
  purpose : EnrollmentPurpose
  key : String
  requestId : String

/-- The checks that need no table, and the name as it is used. -/
def ApprovalRequest.validate (r : ApprovalRequest) : Except EnrollmentStoreError String := do
  let name ← if r.profile then validateDisplayName r.name else validateDisplayId r.name
  match r.uid with
  | none => pure ()
  | some uid => let _ ← validateDisplayId uid
  require (r.requestId ≠ "" ∧ r.requestId.utf8ByteSize ≤ 128 ∧
    r.requestId.toList.all (fun c => c.isAlphanum || c == '-') = true) .invalidRequestId
  pure name

namespace DynamicClientStore

variable (s : DynamicClientStore)

def ensureNotStatic (name key : String) : Except EnrollmentStoreError Unit :=
  require (s.staticIdentities.any (fun p => p.1 = toAsciiLowercase name ∨ p.2 = key) = false) .staticIdentityConflict

/-- The static clients of the configuration, against the clients that are not deleted. -/
def validateStaticCollisions (clients : List AuthorizedClient) : Except EnrollmentStoreError DynamicClientStore := do
  require (clients.all (fun c => s.clients.all fun row =>
    row.tombstoned || (row.normalizedId ≠ toAsciiLowercase c.name && row.publicKey ≠ some c.publicKey)) = true)
    .staticIdentityConflict
  pure { s with staticIdentities := clients.map fun c => (toAsciiLowercase c.name, c.publicKey) }

section Requests

def pendingRequests (now : Nat) : Nat := s.requests.countP fun r => r.status = .pending ∧ now < r.expiresAt

def queryRequest (requestId : String) : Option RequestRow := s.requests.find? fun r => r.requestId = requestId

/-- The client of an approved request as it is now. -/
def approvedRow (row : RequestRow) (profile : Bool) : Option ClientRow :=
  s.clients.find? fun c => c.normalizedId = toAsciiLowercase row.displayId ∧
    (profile = false ∨ c.internalId = row.targetId.getD row.displayId)

/-- The answer to a request that is there already. -/
def retryApproval (r : ApprovalRequest) (name : String) (row : RequestRow) (now : Nat) :
    Except EnrollmentStoreError (ApprovalAnswer × DynamicClientStore) := do
  require (row.profileName.isSome = r.profile ∧ row.profileName.getD row.displayId = name ∧ row.requestedUid = r.uid ∧
    row.publicKey = r.key ∧ row.purpose = r.purpose) .invalidRequestId
  match row.status with
  | .rejected => throw .approvalRejected
  | .approved =>
      match s.approvedRow row r.profile with
      | none => throw .revisionConflict
      | some c =>
          require (some c.revision = row.resultRevision ∧ c.publicKey = some r.key ∧ c.enabled = true ∧ c.tombstoned = false)
            .revisionConflict
          pure (.approved ⟨row.displayId, c.revision⟩, s)
  | .pending =>
      if row.expiresAt ≤ now then do
        bindInteger now
        require (s.pendingRequests now < min s.limits.maxTokens 256) .tokenCapacity
        bindInteger (now + 86400)
        pure (.pending row.targetId.isSome, s.updateRequest r.requestId fun row => { row with expiresAt := now + 86400 })
      else pure (.pending row.targetId.isSome, s)

/-- The id under which a new request looks for its client. -/
def routingId (r : ApprovalRequest) (name randomId : String) : Except EnrollmentStoreError String :=
  if r.profile then
    match r.uid with
    | some uid => do
        let row ← okOr (s.queryRow uid) .clientNotFound
        require ((s.queryKey r.key).all (fun owner => owner.internalId = uid) = true) .publicKeyConflict
        pure row.displayId
    | none => pure (((s.queryKey r.key).map ClientRow.displayId).getD randomId)
  else pure name

def newApproval (r : ApprovalRequest) (name : String) (now : Nat) (randomId : String) :
    Except EnrollmentStoreError (ApprovalAnswer × DynamicClientStore) := do
  bindInteger now
  let s₁ := { s with requests := s.requests.filter fun row => now - 7 * 86400 ≤ row.expiresAt }
  require (s₁.pendingRequests now < min s.limits.maxTokens 256 ∧ s₁.requests.length < 4096) .tokenCapacity
  let routingId ← s₁.routingId r name randomId
  let target := s₁.queryNormalized routingId
  require (target.all (fun c => c.enabled || c.tombstoned) = true) .clientDisabled
  bindInteger (now + 86400)
  let row : RequestRow := {
    requestId := r.requestId, displayId := routingId, publicKey := r.key, purpose := r.purpose,
    targetId := target.map ClientRow.internalId, expectedRevision := target.map ClientRow.revision, expiresAt := now + 86400,
    profileName := if r.profile then some name else none, requestedUid := r.uid }
  pure (.pending target.isSome, { s₁ with requests := s₁.requests ++ [row] })

def requestApprovalInner (r : ApprovalRequest) (now : SystemTime) (randomId : String) :
    Except EnrollmentStoreError (ApprovalAnswer × DynamicClientStore) := do
  let name ← r.validate
  let now ← okOr (durationSinceEpoch now) .invalidToken
  s.ensureNotStatic (if r.profile then "" else name) r.key
  match s.queryRequest r.requestId with
  | some row => s.retryApproval r name row (asSecs now)
  | none => s.newApproval r name (asSecs now) randomId

end Requests

section Reviews

/-- The approval of a request for a client that is there. -/
def approveExisting (row : RequestRow) (id : String) : Except EnrollmentStoreError (Nat × DynamicClientStore) := do
  let expected ← okOr row.expectedRevision .revisionConflict
  let old ← okOr (s.queryRow id) (.database "Query returned no rows")
  require (old.tombstoned = true → s.activeClients < s.limits.maxActiveClients) .clientCapacity
  bindInteger (expected + 1)
  require (old.revision = expected ∧ (old.enabled = true ∨ old.tombstoned = true) ∧
    old.normalizedId = toAsciiLowercase row.displayId) .revisionConflict
  let new := { old with
    publicKey := some row.publicKey, revision := expected + 1, enabled := true, tombstoned := false, deletedAt := none,
    displayName := row.profileName.or old.displayName }
  let s' ← okOr (s.updateClient old new) .publicKeyConflict
  pure (expected + 1, s'.revokeTokens (unconsumedOf id))

/-- The approval of a request for a client of its own. -/
def approveNew (row : RequestRow) (randomId : String) : Except EnrollmentStoreError (Nat × DynamicClientStore) := do
  require (s.activeClients < s.limits.maxActiveClients) .clientCapacity
  let internalId := if row.profileName.isSome then row.displayId else randomId
  let new := { newClient internalId row.displayId with
    publicKey := some row.publicKey, displayName := some (row.profileName.getD row.displayId) }
  let s' ← okOr (s.insertClient new) .revisionConflict
  pure (1, s')

def approveRequest (row : RequestRow) (randomId : String) : Except EnrollmentStoreError (Nat × DynamicClientStore) :=
  match row.targetId with
  | some id => s.approveExisting row id
  | none => s.approveNew row randomId

/-- The answer to the review of a request that is decided already. -/
def repeatReview (row : RequestRow) (approve : Bool) : Except EnrollmentStoreError Unit :=
  match row.status, approve with
  | .approved, true =>
      require (s.clients.any (fun c => c.normalizedId = toAsciiLowercase row.displayId ∧ c.publicKey = some row.publicKey ∧
        some c.revision = row.resultRevision ∧ c.enabled ∧ c.tombstoned = false ∧
        (row.profileName.isSome = false ∨ c.internalId = row.targetId.getD row.displayId)) = true) .revisionConflict
  | .rejected, false => pure ()
  | _, _ => throw .revisionConflict

def reviewApproval (requestId : String) (approve : Bool) (clock : SystemTime) (randomId : String) :
    Except EnrollmentStoreError (Option EnrollmentResult × DynamicClientStore) := do
  let row ← okOr (s.queryRequest requestId) .clientNotFound
  s.ensureNotStatic (if row.profileName.isSome then "" else row.displayId) row.publicKey
  if row.status ≠ .pending then do
    s.repeatReview row approve
    pure (none, s)
  else do
    let now ← unixNow clock
    require (now < row.expiresAt) .tokenExpired
    if approve then do
      let (revision, s') ← s.approveRequest row randomId
      let s'' := s'.updateRequest requestId fun row => { row with status := .approved, resultRevision := some revision }
      pure (some ⟨row.displayId, revision⟩, s'')
    else pure (none, s.updateRequest requestId fun row => { row with status := .rejected })

end Reviews

end DynamicClientStore

end Rustgo.Enrollment
