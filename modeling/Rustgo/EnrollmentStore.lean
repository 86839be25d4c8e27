import Rustgo.EnrollmentRows
import Rustgo.Postcard
import Rustgo.Sha256

namespace Rustgo.Enrollment

open Checks Rows
open Postcard.Format (utf8)

/-- The texts that the store takes from other modules: enrollment keys, made and read by `EnrollmentKeyMaterial`, and
addresses, written as `IpAddr` writes them. -/
structure Formats where
  encodeKey : EnrollmentPurpose → String → Bytes → Bytes → Option String
  decodeKey : String → Option EnrollmentPurpose
  canonicalIp : String → Option String

structure PreparedToken where
  encoded : String
  selector : Vector UInt8 32
  hash : Vector UInt8 32
  salt : Bytes
  expiresAt : Nat

def selectorOf (encoded : String) : Vector UInt8 32 := Sha256.digest (utf8 encoded)

def tokenHash (salt : Bytes) (encoded : String) : Vector UInt8 32 := Sha256.digest (salt ++ utf8 encoded)

structure AuthorizedClient where
  name : String
  publicKey : String
  enabled : Bool
  deriving DecidableEq

namespace DynamicClientStore

variable (formats : Formats) (s : DynamicClientStore)

section Clients

def newClient (internalId displayId : String) : ClientRow where
  internalId := internalId
  displayId := displayId
  normalizedId := toAsciiLowercase displayId

def createClient (displayId : String) (clock : SystemTime) (randomId : String) :
    Except EnrollmentStoreError (DynamicClient × DynamicClientStore) := do
  let displayId ← validateDisplayId displayId
  require (s.enabledClients < s.limits.maxActiveClients) .clientCapacity
  let _ ← unixNow clock
  let row := newClient randomId displayId
  let s' ← okOr (s.insertClient row) .duplicateDisplayId
  pure (clientFromRow row, s')

def renameClient (internalId displayId : String) (expectedRevision : Nat) (clock : SystemTime) :
    Except EnrollmentStoreError (DynamicClient × DynamicClientStore) := do
  let displayId ← validateDisplayId displayId
  let _ ← unixNow clock
  bindInteger expectedRevision
  let row ← okOr (s.findLive internalId expectedRevision) (s.mutationMiss internalId)
  let renamed := { row with displayId, normalizedId := toAsciiLowercase displayId, revision := row.revision + 1 }
  let s' ← okOr (s.updateClient row renamed) .duplicateDisplayId
  readRevision renamed.revision
  pure (clientFromRow renamed, s')

def setClientEnabled (internalId : String) (enabled : Bool) (expectedRevision : Nat) (clock : SystemTime) :
    Except EnrollmentStoreError (DynamicClient × DynamicClientStore) := do
  require (enabled = true → s.activeClients < s.limits.maxActiveClients) .clientCapacity
  let _ ← unixNow clock
  bindInteger expectedRevision
  let row ← okOr (s.findLive internalId expectedRevision) (s.mutationMiss internalId)
  let changed := { row with enabled, revision := row.revision + 1 }
  let s' ← okOr (s.updateClient row changed) (.database "constraint failed")
  readRevision changed.revision
  pure (clientFromRow changed, if enabled then s' else s'.revokeTokens (unconsumedOf internalId))

def deleteClient (internalId : String) (expectedRevision : Nat) (clock : SystemTime) :
    Except EnrollmentStoreError (DynamicClient × DynamicClientStore) := do
  let now ← unixNow clock
  bindInteger now
  bindInteger expectedRevision
  let row ← okOr (s.findLive internalId expectedRevision) (s.mutationMiss internalId)
  let deleted := { row with enabled := false, tombstoned := true, revision := row.revision + 1, deletedAt := some now }
  let s' ← okOr (s.updateClient row deleted) (.database "constraint failed")
  readRevision deleted.revision
  pure (clientFromRow deleted, s'.revokeTokens (unconsumedOf internalId))

def validateLocalIp : Option String → Except EnrollmentStoreError (Option String)
  | none => pure none
  | some ip => some <$> okOr (formats.canonicalIp ip) .invalidLocalIp

/-- Presentation data of a client, which leaves its revision alone. -/
def updateProfile (internalId displayName : String) (localIp : Option String) (clock : SystemTime) :
    Except EnrollmentStoreError DynamicClientStore := do
  let displayName ← validateDisplayName displayName
  let localIp ← validateLocalIp formats localIp
  let _ ← unixNow clock
  let selected := fun row : ClientRow => decide (row.internalId = internalId ∧ row.enabled = true ∧ row.tombstoned = false)
  require (s.clients.any selected = true) .clientNotFound
  pure { s with clients := updateWhere selected (fun row => { row with displayName := some displayName, localIp }) s.clients }

/-- Tombstones go with their tokens, the oldest first. -/
def purgeTombstones (olderThan : SystemTime) (batchLimit : Nat) : Except EnrollmentStoreError (Nat × DynamicClientStore) := do
  require (batchLimit ≠ 0 ∧ batchLimit ≤ 1000) .invalidPurgeLimit
  let cutoff ← okOr (durationSinceEpoch olderThan) .invalidPurgeLimit
  bindInteger (asSecs cutoff)
  let purgeable := s.clients.filter fun row => row.tombstoned ∧ row.deletedAt.any (· ≤ asSecs cutoff)
  let targets := ((purgeable.mergeSort fun a b => a.deletedAt.getD 0 ≤ b.deletedAt.getD 0).take batchLimit).map ClientRow.internalId
  pure (targets.length, { s with
    tokens := s.tokens.filter fun t => t.targetId ∉ targets
    clients := s.clients.filter fun row => row.internalId ∉ targets })

end Clients

section Tokens

def prepareToken (purpose : EnrollmentPurpose) (serverAddr : String) (fingerprint : Bytes) (ttl : Duration) (clock : SystemTime)
    (token salt : Bytes) : Except EnrollmentStoreError PreparedToken := do
  require (ttl ≠ 0) .invalidTokenLifetime
  let encoded ← okOr (formats.encodeKey purpose serverAddr fingerprint token) .invalidKeyMaterial
  let now ← okOr (durationSinceEpoch clock) .invalidTokenLifetime
  let expires ← okOr (checkedAdd now ttl) .invalidTokenLifetime
  pure ⟨encoded, selectorOf encoded, tokenHash salt encoded, salt, asSecs expires⟩

def newToken (prepared : PreparedToken) (purpose : EnrollmentPurpose) (targetId : String) (issuedRevision : Nat) : TokenRow where
  selector := prepared.selector
  tokenHash := prepared.hash
  salt := prepared.salt
  purpose := purpose
  targetId := targetId
  issuedRevision := issuedRevision
  expiresAt := prepared.expiresAt

def createClientWithToken (displayId serverAddr : String) (fingerprint : Bytes) (ttl : Duration) (clock : SystemTime)
    (randomId : String) (token salt : Bytes) :
    Except EnrollmentStoreError ((DynamicClient × String) × DynamicClientStore) := do
  let displayId ← validateDisplayId displayId
  let prepared ← prepareToken formats .enroll serverAddr fingerprint ttl clock token salt
  require (s.activeClients < s.limits.maxActiveClients) .clientCapacity
  require (s.activeTokens < s.limits.maxTokens) .tokenCapacity
  let _ ← unixNow clock
  let row := newClient randomId displayId
  let s₁ ← okOr (s.insertClient row) .duplicateDisplayId
  let s₂ ← s₁.insertToken (newToken prepared .enroll randomId 1)
  pure ((clientFromRow row, prepared.encoded), s₂)

/-- A token for the other state of the binding cannot be used. -/
def purposeFits (purpose : EnrollmentPurpose) (publicKey : Option String) : Bool :=
  match purpose with
  | .enroll => publicKey.isNone
  | .reEnroll => publicKey.isSome

def issueToken (internalId : String) (purpose : EnrollmentPurpose) (serverAddr : String) (fingerprint : Bytes) (ttl : Duration)
    (expectedRevision : Nat) (clock : SystemTime) (token salt : Bytes) :
    Except EnrollmentStoreError (String × DynamicClientStore) := do
  let prepared ← prepareToken formats purpose serverAddr fingerprint ttl clock token salt
  let row ← okOr (s.clients.find? fun row => row.internalId = internalId ∧ row.enabled = true ∧ row.tombstoned = false)
    .clientNotFound
  require (row.revision = expectedRevision) .revisionConflict
  require (purposeFits purpose row.publicKey = true) .purposeMismatch
  let s₁ := s.revokeTokens fun t => t.targetId = internalId ∧ t.purpose = purpose ∧ t.live
  require (s₁.activeTokens < s.limits.maxTokens) .tokenCapacity
  let s₂ ← s₁.insertToken (newToken prepared purpose internalId row.revision)
  pure (prepared.encoded, s₂)

/-- A token with its client. -/
def joinToken (encoded : String) : Option (TokenRow × ClientRow) := do
  let t ← s.tokens.find? fun t => t.selector = selectorOf encoded
  let row ← s.queryRow t.targetId
  pure (t, row)

def consumed (t : TokenRow) (now : Nat) (requestId publicKey : String) (revision : Nat) : TokenRow :=
  { t with
    consumedAt := some now, requestId := some requestId, resultPublicKey := some publicKey, resultRevision := some revision }

/-- The result of a token that is consumed already. -/
def replayToken (t : TokenRow) (row : ClientRow) (publicKey requestId : String) : Except EnrollmentStoreError EnrollmentResult :=
  if t.requestId = some requestId ∧ t.resultPublicKey = some publicKey then do
    let revision ← okOr t.resultRevision (.database "consumed token has no result revision")
    pure ⟨row.displayId, revision⟩
  else throw .tokenAlreadyUsed

def redeemToken (t : TokenRow) (row : ClientRow) (purpose : EnrollmentPurpose) (publicKey requestId : String) (now : Nat) :
    Except EnrollmentStoreError (EnrollmentResult × DynamicClientStore) := do
  require (now ≤ t.expiresAt) .tokenExpired
  require (row.tombstoned = false) .clientNotFound
  require (row.enabled = true) .clientDisabled
  require (t.revoked = false) .invalidToken
  require (row.revision = t.issuedRevision) .revisionConflict
  require (t.purpose = purpose) .invalidToken
  require (purposeFits purpose row.publicKey = true) .purposeMismatch
  bindInteger (row.revision + 1)
  let s₁ ← okOr (s.updateClient row { row with publicKey := some publicKey, revision := row.revision + 1 }) .publicKeyConflict
  bindInteger now
  let s₂ := s₁.updateToken (fun t' => t'.selector = t.selector ∧ t'.consumedAt = none)
    fun t' => consumed t' now requestId publicKey (row.revision + 1)
  pure (⟨row.displayId, row.revision + 1⟩, s₂)

def consumeToken (encoded publicKey requestId : String) (now : SystemTime) :
    Except EnrollmentStoreError (EnrollmentResult × DynamicClientStore) := do
  require (requestId ≠ "" ∧ requestId.utf8ByteSize ≤ 128) .invalidRequestId
  let purpose ← okOr (formats.decodeKey encoded) .invalidToken
  let now ← okOr (durationSinceEpoch now) .invalidToken
  let (t, row) ← okOr (s.joinToken encoded) .invalidToken
  require (tokenHash t.salt encoded = t.tokenHash) .invalidToken
  match t.consumedAt with
  | some _ => do
      let result ← replayToken t row publicKey requestId
      pure (result, s)
  | none => s.redeemToken t row purpose publicKey requestId (asSecs now)

end Tokens

end DynamicClientStore

end Rustgo.Enrollment
