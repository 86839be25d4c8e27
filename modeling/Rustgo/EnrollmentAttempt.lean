import Rustgo.PendingEnrollment

namespace Rustgo.ClientEnrollment

open Durable
open Enrollment
open Managed (rsplitOnce)
open Numerals (hexBytes parseHex)
open Postcard.Format (utf8)
open Protocol
open TextParts (splitOnce)

open Prog (perform okOr require ofExcept)

/-- What a request is made with. -/
inductive Credential
  | approval (intent : RegistrationIntent)
  | legacy (key : EnrollmentKeyMaterial)
  deriving DecidableEq

@[irreducible] def parseCredential (encodedKey : String) : Except EnrollmentError Credential :=
  match RegistrationIntent.decode encodedKey with
  | .ok intent => .ok (.approval intent)
  | .error _ =>
      match EnrollmentKeyMaterial.decode encodedKey with
      | .ok key => .ok (.legacy key)
      | .error error => .error (.ofKeyError error)

/-- The host of an address. -/
def serverName (address : String) : Except EnrollmentError String :=
  match address.toList with
  | '[' :: text => Checks.okOr ((splitOnce ']' text).map fun parts => String.ofList parts.1) .invalidAddress
  | text => Checks.okOr ((rsplitOnce ':' text).map fun parts => String.ofList parts.1) .invalidAddress

theorem serverName_of_bracket {address : String} {text : List Char} (h : address.toList = '[' :: text) :
    serverName address = Checks.okOr ((splitOnce ']' text).map fun parts => String.ofList parts.1) .invalidAddress := by
  simp only [serverName, h]

theorem serverName_of_not_bracket {address : String} (h : ∀ text, address.toList = '[' :: text → False) :
    serverName address = Checks.okOr ((rsplitOnce ':' address.toList).map fun parts => String.ofList parts.1) .invalidAddress := by
  unfold serverName
  split
  · next text heq => exact absurd heq (h text)
  · rfl

def configuredFingerprint (config : ClientSection) : Option Fingerprint := do
  let encoded ← config.serverCertificateFingerprint
  guard (encoded.utf8ByteSize = 64 ∧ encoded.toList.all isAscii)
  let bytes ← parseHex encoded.toList
  toVector 32 bytes

/-- The server of a request for an approval. -/
structure Endpoint where
  trust : Trust
  serverName : String
  address : String

variable (keys : Keys)

def approvalEndpoint (config : ClientSection) : Action Endpoint := do
  let metadataExists ← perform .metadataExists
  if metadataExists then do
    let pending ← load keys
    require (pending.serverAddr = config.serverAddr) .invalidPendingState
    let fingerprint ← okOr pending.fingerprint .invalidPendingState
    okOr (← perform (.openTls (.pinned fingerprint) config.serverName)) .localCertificate
    pure ⟨.pinned fingerprint, config.serverName, config.serverAddr⟩
  else do
    let trust ← match config.trustMode with
      | some .pinned => do
          let fingerprint ← okOr (configuredFingerprint config) .invalidPendingState
          pure (.pinned fingerprint)
      | none => do
          let caExists ← okOr (← perform .certificateAuthorityExists) .localCertificate
          pure (if caExists then .caFile else .initialEnrollment)
    okOr (← perform (.openTls trust config.serverName)) .localCertificate
    pure ⟨trust, config.serverName, config.serverAddr⟩

def legacyEndpoint (key : EnrollmentKeyMaterial) : Action Endpoint := do
  let name ← ofExcept (serverName key.serverAddr)
  okOr (← perform (.openTls (.pinned key.certificateFingerprint) name)) .network
  pure ⟨.pinned key.certificateFingerprint, name, key.serverAddr⟩

def endpoint (config : ClientSection) : Credential → Action Endpoint
  | .approval _ => approvalEndpoint keys config
  | .legacy key => legacyEndpoint key

/-- The key of a server whose certificate was verified. -/
def forVerifiedServer (purpose : EnrollmentPurpose) (address : String) (fingerprint : Fingerprint) :
    Except EnrollmentError EnrollmentKeyMaterial :=
  match EnrollmentKeyMaterial.new purpose address fingerprint (Vector.replicate 32 0) with
  | .ok key => .ok key
  | .error error => .error (.ofKeyError error)

def keyOf (address : String) (certificate : Fingerprint) : Credential → Except EnrollmentError EnrollmentKeyMaterial
  | .approval intent => forVerifiedServer intent.purpose address certificate
  | .legacy key => .ok key

def Credential.isApproval : Credential → Bool
  | .approval _ => true
  | .legacy _ => false

/-- The fields of the transcript are too short for `append_bytes` to panic. -/
def signApproval (key : PrivateKey) (requestId intent : String) : Vector UInt8 64 :=
  keys.sign key ((approvalTranscript requestId intent).elim [] AuthTranscript.encoded)

/-- The intent of the request, which is the stored one if there is one. -/
def bindIntent (config : ClientSection) (existed : Bool) (pending : PendingMetadata) (intent : RegistrationIntent) :
    Action (PendingMetadata × RegistrationIntent) := do
  let intent ← ofExcept (
    if existed = true ∧ pending.requiresLegacyApprovalIntent = true then
      (RegistrationIntent.new config.name intent.purpose).mapError .ofKeyError
    else .ok intent)
  let (pending, encoded) ← bindApprovalIntent pending intent.encode
  let intent ← ofExcept ((RegistrationIntent.decode encoded).mapError .ofKeyError)
  pure (pending, intent)

/-- The signed intent of an approval, or the key itself. -/
def wireCredential (config : ClientSection) (encodedKey : String) (existed : Bool) (pending : PendingMetadata) :
    Credential → Action (PendingMetadata × String)
  | .approval intent => do
      let (pending, intent) ← bindIntent config existed pending intent
      let key ← okOr (← perform (.loadPrivateFile pending.candidatePrivateKey)) .invalidPendingState
      let signature := signApproval keys key pending.requestId intent.encode
      pure (pending, { intent with signature := some signature }.wireCredential)
  | .legacy _ => pure (pending, encodedKey)

def enrollmentRequest (pending : PendingMetadata) (credential : String) : Except EnrollmentError EnrollmentRequest := do
  let enrollmentKey ← (BoundedString.tryFrom maxEnrollmentKeyBytes credential).mapError fun _ => .invalidFormat
  let publicKey ← (BoundedBytes.tryFrom maxPublicKeyBytes (utf8 pending.publicKey)).mapError fun _ => .invalidPendingState
  let requestId ← (BoundedString.tryFrom maxEnrollmentRequestIdBytes pending.requestId).mapError fun _ => .invalidPendingState
  pure ⟨1, enrollmentKey, publicKey, requestId⟩

def submit (request : EnrollmentRequest) : Action EnrollmentCompletion := do
  let reply : Reply ← perform (Op.send request)
  match reply with
  | .lost => .fail .network
  | .rejected code => .fail (.rejected code)
  | .accepted completion => pure completion

/-- What `update_config_values` puts into the file. -/
def updatedConfig (config contents : ClientSection) (key : EnrollmentKeyMaterial) (clientId : String) : ClientSection :=
  { contents with
    profile := some (config.profile.getD ⟨config.name, none, none⟩)
    name := clientId
    identityMode := some .dynamic
    serverAddr := key.serverAddr
    trustMode := some .pinned
    serverCertificateFingerprint := some (String.ofList (hexBytes key.certificateFingerprint.toList)) }

def updateConfig (config : ClientSection) (key : EnrollmentKeyMaterial) (clientId : String) : Action Unit := do
  let contents ← okOr (← perform .readConfig) .configurationIo
  file .createConfigTemp .configurationIo
  file .writeConfigTemp .configurationIo
  file (.installConfig (updatedConfig config contents key clientId)) .configurationIo

def enrollInner (config : ClientSection) (encodedKey : String) (reuse : Bool) : Action EnrollmentCompletion := do
  let credential ← ofExcept (parseCredential encodedKey)
  let server ← endpoint keys config credential
  let certificate ← okOr (← perform (.connect server.trust server.serverName server.address)) .networkDetail
  let key ← ofExcept (keyOf server.address certificate credential)
  let pendingExisted ← perform .metadataExists
  let pending ← if pendingExisted then load keys else createInner keys key (credential.isApproval && reuse)
  require (pending.purpose = key.purpose ∧ pending.serverAddr = key.serverAddr ∧
    pending.fingerprint = some key.certificateFingerprint) .invalidPendingState
  let (pending, credential) ← wireCredential keys config encodedKey pendingExisted pending credential
  let request ← ofExcept (enrollmentRequest pending credential)
  let completion ← submit request
  updateConfig config key completion.clientId
  promote keys pending
  pure completion

def enroll (config : ClientSection) (encodedKey : String) : Action EnrollmentCompletion := enrollInner keys config encodedKey true

def ClientSection.displayName (config : ClientSection) : String := (config.profile.map ClientProfile.displayName).getD config.name

def ClientSection.uid (config : ClientSection) : Option String := config.profile.bind ClientProfile.uid

@[irreducible] def intentOf (config : ClientSection) (purpose : EnrollmentPurpose) : Except EnrollmentError RegistrationIntent :=
  (RegistrationIntent.forProfile config.displayName config.uid purpose).mapError .ofKeyError

def requestRegistration (config : ClientSection) (purpose : EnrollmentPurpose) : Action EnrollmentCompletion := do
  let intent ← ofExcept (intentOf config purpose)
  enroll keys config intent.encode

/-- Without a user id and a stored request, the profile comes from a session. -/
def sessionConfig (config : ClientSection) : Action ClientSection := do
  let metadataExists ← perform .metadataExists
  if config.uid = none ∧ metadataExists = false then do
    okOr (← perform (.controlClient config)) .invalidPendingState
    let profile ← okOr (← perform (.authenticate config)) .network
    pure (match profile with
      | some profile => { config with profile := some profile }
      | none => config)
  else pure config

def requestKeyRotation (config : ClientSection) : Action EnrollmentCompletion := do
  let config ← sessionConfig config
  let intent ← ofExcept (intentOf config .reEnroll)
  enrollInner keys config intent.encode false

end Rustgo.ClientEnrollment
