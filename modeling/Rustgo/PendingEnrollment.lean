import Rustgo.Durable
import Rustgo.RegistrationIntents
import Rustgo.ProtocolMessage
import Rustgo.SigningTranscripts

namespace Rustgo.ClientEnrollment

open Durable
open Enrollment
open Numerals (hexBytes parseHex isDigit)
open Protocol (EnrollmentErrorCode EnrollmentRequest maxPublicKeyBytes toVector)

/-- The secret of a device key. -/
abbrev PrivateKey := Vector UInt8 32

abbrev Fingerprint := Vector UInt8 32

/-- What `rustgo-crypto` makes of a device key. -/
structure Keys where
  publicKey : PrivateKey → String
  sign : PrivateKey → Bytes → Vector UInt8 64
  size_le : ∀ key, (publicKey key).utf8ByteSize ≤ maxPublicKeyBytes

inductive EnrollmentError
  | invalidFormat
  | unsupportedVersion
  | invalidChecksum
  | invalidPurpose
  | invalidAddress
  | invalidPendingState
  | pendingIo (operation : String)
  | destinationExists
  | network
  | networkDetail
  | localCertificate
  | rejected (code : EnrollmentErrorCode)
  | configurationIo
  deriving DecidableEq

def EnrollmentError.ofKeyError : EnrollmentKeyError → EnrollmentError
  | .invalidFormat => .invalidFormat
  | .unsupportedVersion => .unsupportedVersion
  | .invalidChecksum => .invalidChecksum
  | .invalidPurpose => .invalidPurpose
  | .invalidAddress => .invalidAddress

/-- The key file of the configuration, or the key in the directory made for a request. -/
inductive KeyPath
  | final
  | candidate (requestId : String)
  deriving DecidableEq

inductive KeyFile
  | valid (key : PrivateKey)
  | invalid
  deriving DecidableEq

structure PendingMetadata where
  formatVersion : Nat
  approvalIntent : Option String
  approvalMetadataVersion : Nat
  kind : String
  candidatePrivateKey : KeyPath
  finalPrivateKey : KeyPath
  requestId : String
  serverAddr : String
  certificateFingerprint : String
  trustMode : String
  publicKey : String
  reuseExisting : Bool
  allowReplace : Bool
  deriving DecidableEq

inductive TrustMode
  | pinned
  deriving DecidableEq

inductive IdentityMode
  | static
  | dynamic
  deriving DecidableEq

structure ClientProfile where
  displayName : String
  uid : Option String
  localIp : Option String
  deriving DecidableEq

structure ClientSection where
  name : String
  profile : Option ClientProfile
  identityMode : Option IdentityMode
  serverAddr : String
  serverName : String
  trustMode : Option TrustMode
  serverCertificateFingerprint : Option String
  deriving DecidableEq

/-- How the certificate of the server is verified. -/
inductive Trust
  | pinned (fingerprint : Fingerprint)
  | initialEnrollment
  | caFile
  deriving DecidableEq

structure EnrollmentCompletion where
  clientId : String
  revision : UInt64
  deriving DecidableEq

/-- What comes back for a request. -/
inductive Reply
  | lost
  | rejected (code : EnrollmentErrorCode)
  | accepted (completion : EnrollmentCompletion)
  deriving DecidableEq

/-- The operations that change files. -/
inductive FileOp
  | createDirectory
  | persistPublicKey (requestId : String)
  | createMetadataTemp (requestId : String)
  | writeMetadataTemp (requestId : String)
  | installMetadata (metadata : PendingMetadata)
  | replaceKey (source target : KeyPath)
  | removeMetadata
  | createConfigTemp
  | writeConfigTemp
  | installConfig (config : ClientSection)
  deriving DecidableEq

/-- The operations on files and on the network. -/
inductive Op
  | metadataExists
  | keyExists (path : KeyPath)
  | readMetadata
  | loadPrivateFile (path : KeyPath)
  | readConfig
  | file (op : FileOp)
  | persistPrivateKey (requestId : String)
  | randomRequestId
  | certificateAuthorityExists
  | controlClient (config : ClientSection)
  | authenticate (config : ClientSection)
  | openTls (trust : Trust) (serverName : String)
  | connect (trust : Trust) (serverName address : String)
  | send (request : EnrollmentRequest)
  deriving DecidableEq

/-- An operation that can fail answers with an option. -/
abbrev Op.Answer : Op → Type
  | metadataExists => Bool
  | keyExists _ => Bool
  | readMetadata => Option PendingMetadata
  | loadPrivateFile _ => Option PrivateKey
  | readConfig => Option ClientSection
  | file _ => Option Unit
  | persistPrivateKey _ => Option PrivateKey
  | randomRequestId => Option String
  | certificateAuthorityExists => Option Bool
  | controlClient _ => Option Unit
  | authenticate _ => Option (Option ClientProfile)
  | openTls _ _ => Option Unit
  | connect _ _ _ => Option Fingerprint
  | send _ => Reply

abbrev Action := Prog Op Op.Answer EnrollmentError

open Prog (perform okOr require ofExcept)

def file (op : FileOp) (error : EnrollmentError) : Action Unit := do okOr (← perform (.file op)) error

namespace PendingMetadata

def purpose (m : PendingMetadata) : EnrollmentPurpose := if m.kind = "reenroll" then .reEnroll else .enroll

def fingerprint (m : PendingMetadata) : Option Fingerprint := (parseHex m.certificateFingerprint.toList).bind (toVector 32)

def requiresLegacyApprovalIntent (m : PendingMetadata) : Bool := m.approvalMetadataVersion = 1 ∧ m.approvalIntent = none

/-- The part of `validate_metadata` before the key is loaded. -/
def isValid (m : PendingMetadata) (finalExists : Bool) : Bool :=
  m.formatVersion = 1 ∧ (m.approvalMetadataVersion = 1 ∨ m.approvalMetadataVersion = 2) ∧
    (m.kind = "enroll" ∨ m.kind = "reenroll") ∧ m.requestId.utf8ByteSize = 32 ∧ m.serverAddr ≠ "" ∧
    m.certificateFingerprint.utf8ByteSize = 64 ∧ m.certificateFingerprint.toList.all (isDigit 16) ∧ m.trustMode = "pinned" ∧
    ¬(m.kind = "enroll" ∧ finalExists = true ∧ m.reuseExisting = false ∧ m.allowReplace = false) ∧
    ¬(m.reuseExisting = true ∧ m.candidatePrivateKey ≠ m.finalPrivateKey)

end PendingMetadata

variable (keys : Keys)

def validateMetadata (m : PendingMetadata) : Action Unit := do
  let finalExists ← perform (.keyExists m.finalPrivateKey)
  require (m.isValid finalExists = true) .invalidPendingState
  let key ← okOr (← perform (.loadPrivateFile m.candidatePrivateKey)) .invalidPendingState
  require (keys.publicKey key = m.publicKey) .invalidPendingState

def writeMetadata (m : PendingMetadata) : Action Unit := do
  file .createDirectory (.pendingIo "create metadata directory")
  file (.createMetadataTemp m.requestId) (.pendingIo "create metadata")
  file (.writeMetadataTemp m.requestId) (.pendingIo "write metadata")
  file (.installMetadata m) (.pendingIo "install metadata")

def generateKeyFile (requestId : String) : Action String := do
  let key ← okOr (← perform (.persistPrivateKey requestId)) .invalidPendingState
  file (.persistPublicKey requestId) .invalidPendingState
  pure (keys.publicKey key)

def kindOf : EnrollmentPurpose → String
  | .enroll => "enroll"
  | .reEnroll => "reenroll"

/-- The metadata of a request that has no intent yet. -/
def newMetadata (key : EnrollmentKeyMaterial) (reuse : Bool) (requestId publicKey : String) (candidate : KeyPath)
    (reuseExisting : Bool) : PendingMetadata where
  formatVersion := 1
  approvalIntent := none
  approvalMetadataVersion := 2
  kind := kindOf key.purpose
  candidatePrivateKey := candidate
  finalPrivateKey := .final
  requestId
  serverAddr := key.serverAddr
  certificateFingerprint := String.ofList (hexBytes key.certificateFingerprint.toList)
  trustMode := "pinned"
  publicKey
  reuseExisting
  allowReplace := reuse || key.purpose = .reEnroll

def createInner (key : EnrollmentKeyMaterial) (reuse : Bool) : Action PendingMetadata := do
  let metadataExists ← perform .metadataExists
  let finalExists ← perform (.keyExists .final)
  require (¬(metadataExists = true ∨ (reuse = false ∧ key.purpose = .enroll ∧ finalExists = true))) .destinationExists
  let requestId ← okOr (← perform .randomRequestId) (.pendingIo "obtain randomness for")
  file .createDirectory (.pendingIo "create key directory")
  let existing ← if reuse then perform (Op.loadPrivateFile .final) else pure none
  let m ← match existing with
    | some existing => pure (newMetadata key reuse requestId (keys.publicKey existing) .final true)
    | none => do
        let publicKey ← generateKeyFile keys requestId
        pure (newMetadata key reuse requestId publicKey (.candidate requestId) false)
  writeMetadata m
  pure m

/-- A candidate that is gone was moved to its final path if the key there is the candidate. -/
def recover (m : PendingMetadata) (candidateExists : Bool) (final : Option PrivateKey) : PendingMetadata :=
  if candidateExists = false ∧ final.any (fun key => keys.publicKey key = m.publicKey) = true then
    { m with candidatePrivateKey := m.finalPrivateKey, reuseExisting := true }
  else m

def load : Action PendingMetadata := do
  let m ← okOr (← perform .readMetadata) (.pendingIo "read")
  let candidateExists ← perform (.keyExists m.candidatePrivateKey)
  let final ← if candidateExists then pure none else perform (Op.loadPrivateFile m.finalPrivateKey)
  let m := recover keys m candidateExists final
  validateMetadata keys m
  pure m

/-- The intent that is bound already stays. -/
def bindApprovalIntent (m : PendingMetadata) (intent : String) : Action (PendingMetadata × String) :=
  match m.approvalIntent with
  | some existing => pure (m, existing)
  | none => do
      let m := { m with approvalIntent := some intent }
      writeMetadata m
      pure (m, intent)

/-- The public key beside the candidate and its directory are removed as far as that goes. -/
def promote (m : PendingMetadata) : Action Unit := do
  validateMetadata keys m
  if m.reuseExisting then file .removeMetadata (.pendingIo "remove metadata")
  else do
    let finalExists ← perform (.keyExists m.finalPrivateKey)
    require (¬(finalExists = true ∧ m.allowReplace = false ∧ m.purpose ≠ .reEnroll)) .destinationExists
    file (.replaceKey m.candidatePrivateKey m.finalPrivateKey) (.pendingIo "promote candidate key")
    file .removeMetadata (.pendingIo "remove metadata")

end Rustgo.ClientEnrollment
