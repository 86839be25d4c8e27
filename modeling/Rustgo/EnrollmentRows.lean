import Mathlib.Data.List.Sort
import Rustgo.Bytes
import Rustgo.Checks
import Rustgo.ManagedConfiguration
import Rustgo.Rows

namespace Rustgo.Enrollment

open Checks Rows
open Managed (isWhitespace)

inductive EnrollmentPurpose
  | enroll
  | reEnroll
  deriving DecidableEq

inductive EnrollmentStoreError
  | approvalPending
  | replacementApprovalPending
  | approvalRejected
  | invalidDisplayName
  | invalidLocalIp
  | invalidDisplayId
  | duplicateDisplayId
  | clientCapacity
  | clientNotFound
  | clientDisabled
  | revisionConflict
  | tokenCapacity
  | invalidTokenLifetime
  | invalidKeyMaterial
  | invalidToken
  | tokenExpired
  | tokenAlreadyUsed
  | purposeMismatch
  | publicKeyConflict
  | staticIdentityConflict
  | invalidPurgeLimit
  | invalidRequestId
  | database (message : String)
  deriving DecidableEq

structure EnrollmentStoreLimits where
  maxActiveClients : Nat
  maxTokens : Nat

/-- A row of `dynamic_clients`. Its number tells it from every row before and after it, also under the same id. -/
structure ClientRow where
  serial : Nat := 0
  internalId : String
  displayId : String
  normalizedId : String
  publicKey : Option String := none
  enabled : Bool := true
  revision : Nat := 1
  tombstoned : Bool := false
  deletedAt : Option Nat := none
  displayName : Option String := none
  localIp : Option String := none
  deriving DecidableEq

/-- A row of `enrollment_tokens`, with a number as well. -/
structure TokenRow where
  serial : Nat := 0
  selector : Vector UInt8 32
  tokenHash : Vector UInt8 32
  salt : Bytes
  purpose : EnrollmentPurpose
  targetId : String
  issuedRevision : Nat
  expiresAt : Nat
  consumedAt : Option Nat := none
  requestId : Option String := none
  resultPublicKey : Option String := none
  resultRevision : Option Nat := none
  revoked : Bool := false
  deriving DecidableEq

/-- A token that can still be consumed. -/
def TokenRow.live (t : TokenRow) : Bool := t.consumedAt = none ∧ t.revoked = false

inductive RequestStatus
  | pending
  | approved
  | rejected
  deriving DecidableEq

/-- A row of `registration_requests`. -/
structure RequestRow where
  requestId : String
  displayId : String
  publicKey : String
  purpose : EnrollmentPurpose
  targetId : Option String
  expectedRevision : Option Nat
  expiresAt : Nat
  status : RequestStatus := .pending
  resultRevision : Option Nat := none
  profileName : Option String
  requestedUid : Option String
  deriving DecidableEq

structure DynamicClient where
  internalId : String
  displayId : String
  displayName : String
  localIp : Option String
  enabled : Bool
  revision : Nat
  publicKey : Option String
  tombstoned : Bool
  deriving DecidableEq

def clientFromRow (row : ClientRow) : DynamicClient where
  internalId := row.internalId
  displayId := row.displayId
  displayName := row.displayName.getD row.displayId
  localIp := row.localIp
  enabled := row.enabled
  revision := row.revision
  publicKey := row.publicKey
  tombstoned := row.tombstoned

structure EnrollmentResult where
  displayId : String
  revision : Nat
  deriving DecidableEq

structure DynamicClientStore where
  clients : List ClientRow
  tokens : List TokenRow
  requests : List RequestRow
  staticIdentities : List (String × String)
  limits : EnrollmentStoreLimits
  /-- The number of the next row. -/
  serial : Nat

def DynamicClientStore.open (limits : EnrollmentStoreLimits) : DynamicClientStore := ⟨[], [], [], [], limits, 0⟩

section Text

def toAsciiLowercase (s : String) : String := String.ofList (s.toList.map Char.toLower)

def trim (s : String) : String :=
  String.ofList ((s.toList.dropWhile isWhitespace).reverse.dropWhile isWhitespace).reverse

def validateDisplayId (value : String) : Except EnrollmentStoreError String := do
  let value := trim value
  require (value ≠ "" ∧ value.utf8ByteSize ≤ 64 ∧
    value.toList.all (fun c => c.isAlphanum || c == '.' || c == '_' || c == '-') = true) .invalidDisplayId
  pure value

def isControl (c : Char) : Bool := c.toNat < 0x20 ∨ (0x7f ≤ c.toNat ∧ c.toNat < 0xa0)

def validateDisplayName (value : String) : Except EnrollmentStoreError String := do
  require (trim value ≠ "" ∧ value.utf8ByteSize ≤ 128 ∧ value.toList.any isControl = false) .invalidDisplayName
  pure value

end Text

section Time

/-- Nanoseconds since the Unix epoch. -/
abbrev SystemTime := Int

/-- Nanoseconds. -/
abbrev Duration := Nat

def asSecs (d : Duration) : Nat := d / 10 ^ 9

def durationSinceEpoch (t : SystemTime) : Option Duration := if 0 ≤ t then some t.toNat else none

def checkedAdd (d d' : Duration) : Option Duration := if asSecs (d + d') < 2 ^ 64 then some (d + d') else none

def unixNow (clock : SystemTime) : Except EnrollmentStoreError Nat := do
  let d ← okOr (durationSinceEpoch clock) (.database "system clock predates Unix epoch")
  pure (asSecs d)

end Time

section Integers

/-- The largest integer of the database. -/
def i64Max : Nat := 2 ^ 63 - 1

/-- A number that is not an integer of the database cannot be passed to a statement. -/
def bindInteger (n : Nat) : Except EnrollmentStoreError Unit :=
  require (n ≤ i64Max) (.database "out of range integral type conversion attempted")

/-- A sum that is not an integer of the database is stored as a real number, which is not read back. -/
def readRevision (n : Nat) : Except EnrollmentStoreError Unit :=
  require (n ≤ i64Max) (.database "Invalid column type Real at index: 3, name: revision")

end Integers

namespace DynamicClientStore

/-- Two rows that the keys of the table keep apart. -/
def conflicts (row row' : ClientRow) : Bool :=
  row.internalId = row'.internalId ∨ row.normalizedId = row'.normalizedId ∨
    (row.publicKey.isSome ∧ row.publicKey = row'.publicKey)

/-- `none` if the insertion violates a constraint. -/
def insertClient (s : DynamicClientStore) (row : ClientRow) : Option DynamicClientStore :=
  if s.clients.any (conflicts row) then none
  else some { s with clients := s.clients ++ [{ row with serial := s.serial }], serial := s.serial + 1 }

/-- `none` if the change of the row violates a constraint. -/
def updateClient (s : DynamicClientStore) (old new : ClientRow) : Option DynamicClientStore :=
  if s.clients.any (fun row => row.internalId ≠ old.internalId ∧ conflicts new row) then none
  else some { s with clients := updateWhere (fun row => row.internalId = old.internalId) (fun _ => new) s.clients }

def insertToken (s : DynamicClientStore) (row : TokenRow) : Except EnrollmentStoreError DynamicClientStore := do
  bindInteger row.expiresAt
  require (s.tokens.any (fun t => t.selector = row.selector) = false)
    (.database "UNIQUE constraint failed: enrollment_tokens.selector")
  pure { s with tokens := s.tokens ++ [{ row with serial := s.serial }], serial := s.serial + 1 }

def updateToken (s : DynamicClientStore) (p : TokenRow → Bool) (f : TokenRow → TokenRow) : DynamicClientStore :=
  { s with tokens := updateWhere p f s.tokens }

def revokeTokens (s : DynamicClientStore) (p : TokenRow → Bool) : DynamicClientStore :=
  s.updateToken p fun t => { t with revoked := true }

/-- The tokens of a client that are not consumed. -/
def unconsumedOf (internalId : String) (t : TokenRow) : Bool := t.targetId = internalId ∧ t.consumedAt = none

def updateRequest (s : DynamicClientStore) (requestId : String) (f : RequestRow → RequestRow) : DynamicClientStore :=
  { s with requests := updateWhere (fun r => r.requestId = requestId) f s.requests }

def queryRow (s : DynamicClientStore) (internalId : String) : Option ClientRow :=
  s.clients.find? fun row => row.internalId = internalId

def queryNormalized (s : DynamicClientStore) (displayId : String) : Option ClientRow :=
  s.clients.find? fun row => row.normalizedId = toAsciiLowercase displayId

def queryKey (s : DynamicClientStore) (publicKey : String) : Option ClientRow :=
  s.clients.find? fun row => row.publicKey = some publicKey

def enabledClients (s : DynamicClientStore) : Nat := s.clients.countP fun row => row.enabled

def activeClients (s : DynamicClientStore) : Nat := s.clients.countP fun row => row.enabled ∧ row.tombstoned = false

def activeTokens (s : DynamicClientStore) : Nat := s.tokens.countP TokenRow.live

/-- The row that `WHERE internal_id = ? AND revision = ? AND tombstoned = 0` selects. -/
def findLive (s : DynamicClientStore) (internalId : String) (expectedRevision : Nat) : Option ClientRow :=
  s.clients.find? fun row => row.internalId = internalId ∧ row.revision = expectedRevision ∧ row.tombstoned = false

def mutationMiss (s : DynamicClientStore) (internalId : String) : EnrollmentStoreError :=
  match s.queryRow internalId with
  | some row => if row.tombstoned then .clientNotFound else .revisionConflict
  | none => .clientNotFound

def client (s : DynamicClientStore) (internalId : String) : Option DynamicClient := (s.queryRow internalId).map clientFromRow

def clientByDisplayId (s : DynamicClientStore) (displayId : String) : Except EnrollmentStoreError (Option DynamicClient) := do
  let displayId ← validateDisplayId displayId
  pure ((s.clients.find? fun row => row.normalizedId = toAsciiLowercase displayId ∧ row.tombstoned = false).map clientFromRow)

def clientByPublicKey (s : DynamicClientStore) (publicKey : String) : Option DynamicClient :=
  (s.queryKey publicKey).map clientFromRow

end DynamicClientStore

end Rustgo.Enrollment
