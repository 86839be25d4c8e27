import Rustgo.RegistrationApproval
import Rustgo.SigningTranscripts
import Rustgo.Tables

namespace Rustgo.Auth

open Checks Enrollment Protocol Tables
open Orchestration (DevicePublicKey)
open Postcard.Format (decodeUtf8 utf8)

inductive AuthError
  | invalidConfiguration
  | rejected
  | entropyUnavailable
  | internal
  deriving DecidableEq

/-- What keys are written and checked with: the standard alphabet of base 64, whose decoder takes the text that its
encoder makes and no other, the keys that are points of order large enough, and signatures. -/
structure KeyFormats where
  encode : Bytes → String
  decode : String → Option Bytes
  encode_of_decode : ∀ {text bytes}, decode text = some bytes → encode bytes = text
  isKey : Vector UInt8 32 → Bool
  verify : DevicePublicKey → Bytes → Bytes → Bool

section Keys

def publicKeyPrefix : String := "ed25519:"

variable (keys : KeyFormats)

def displayKey (key : DevicePublicKey) : String := publicKeyPrefix ++ keys.encode key.bytes.toList

def stripPrefix (start text : String) : Option String :=
  if start.toList <+: text.toList then some (String.ofList (text.toList.drop start.toList.length)) else none

def keyOfBytes (bytes : Bytes) : Option DevicePublicKey :=
  if h : bytes.length = 32 then
    let bytes := ⟨bytes.toArray, h⟩
    if keys.isKey bytes then some ⟨bytes⟩ else none
  else none

def keyFromStr (encoded : String) : Option DevicePublicKey := do
  let payload ← stripPrefix publicKeyPrefix encoded
  let bytes ← keys.decode payload
  keyOfBytes keys bytes

/-- The text of a fingerprint behind its `sha256:`. -/
def wireFingerprint (key : DevicePublicKey) : String :=
  String.ofList ((Sha256.digest key.bytes.toList).toList.flatMap fun b => [Nat.digitChar (b.toNat / 16), Nat.digitChar (b.toNat % 16)])

def fingerprint (key : DevicePublicKey) : String := "sha256:" ++ wireFingerprint key

theorem stripPrefix_eq_some {start text rest : String} (h : stripPrefix start text = some rest) : start ++ rest = text := by
  obtain ⟨hstart, heq⟩ := Option.ite_none_right_eq_some.mp h
  obtain ⟨tail, htail⟩ := hstart
  obtain rfl := Option.some.inj heq
  apply String.toList_inj.mp
  rw [String.toList_append, String.toList_ofList, ← htail, List.drop_left]

/-- A key is written as it was read. -/
theorem displayKey_keyFromStr {encoded : String} {key : DevicePublicKey} (h : keyFromStr keys encoded = some key) :
    displayKey keys key = encoded := by
  simp only [keyFromStr, Option.bind_eq_bind, Option.bind_eq_some_iff] at h
  obtain ⟨payload, hpayload, bytes, hdecode, hkey⟩ := h
  unfold keyOfBytes at hkey
  split at hkey
  · next hlength =>
    obtain ⟨-, heq⟩ := Option.ite_none_right_eq_some.mp hkey
    obtain rfl := Option.some.inj heq
    exact (congrArg (publicKeyPrefix ++ ·) (keys.encode_of_decode hdecode)).trans (stripPrefix_eq_some hpayload)
  · cases hkey

end Keys

structure AuthorizationEntry where
  publicKey : DevicePublicKey
  fingerprint : String
  enabled : Bool
  deriving DecidableEq

structure Authenticator where
  entriesByName : Table String AuthorizationEntry
  namesByFingerprint : Table String String
  nextSessionSequence : Nat

structure PendingAuthentication where
  clientName : String
  claimedFingerprint : Bytes
  challenge : Bytes
  sessionId : Bytes
  version : ProtocolVersion

structure AuthenticatedClient where
  name : String
  fingerprint : String
  sessionId : Bytes
  deriving DecidableEq

namespace Authenticator

variable (keys : KeyFormats) (a : Authenticator)

def addClient (client : AuthorizedClient) : Except AuthError Authenticator := do
  let publicKey ← okOr (keyFromStr keys client.publicKey) .invalidConfiguration
  let fingerprint := fingerprint publicKey
  require (client.name ∉ a.entriesByName ∧ fingerprint ∉ a.namesByFingerprint) .invalidConfiguration
  pure { a with
    entriesByName := a.entriesByName.insert client.name ⟨publicKey, fingerprint, client.enabled⟩
    namesByFingerprint := a.namesByFingerprint.insert fingerprint client.name }

def newWithDynamic (clients : List AuthorizedClient) : Except AuthError Authenticator :=
  clients.foldlM (addClient keys) ⟨∅, ∅, 0⟩

/-- The random bytes are `none` where the system has none to give. -/
def issueSessionId (random : Option (Vector UInt8 24)) : Except AuthError Bytes × Authenticator :=
  if a.nextSessionSequence + 1 < 2 ^ 64 then
    (okOr (random.map fun random => random.toList ++ be 8 a.nextSessionSequence) .entropyUnavailable,
      { a with nextSessionSequence := a.nextSessionSequence + 1 })
  else (.error .internal, a)

def begin (hello : ClientHello) (version : ProtocolVersion) (challenge : Option (Vector UInt8 32))
    (random : Option (Vector UInt8 24)) : Except AuthError PendingAuthentication × Authenticator :=
  match challenge with
  | none => (.error .entropyUnavailable, a)
  | some challenge => (a.issueSessionId random).map (fun issued => do
      let sessionId ← issued
      pure {
        clientName := hello.clientName.str
        claimedFingerprint := hello.fingerprint.bytes
        challenge := challenge.toList
        sessionId
        version }) id

def staticIdentity (clientName : String) (key : DevicePublicKey) : Option String :=
  ((a.entriesByName.lookup clientName).filter fun entry =>
    entry.enabled ∧ entry.publicKey = key ∧ entry.fingerprint = fingerprint key ∧
      a.namesByFingerprint.lookup (fingerprint key) = some clientName).map fun _ => clientName

/-- The name that a key has in the store. -/
def dynamicIdentity (store : Option DynamicClientStore) (key : DevicePublicKey) : Option String := do
  let store ← store
  let client ← store.clientByPublicKey (displayKey keys key)
  if client.enabled ∧ client.tombstoned = false then some client.displayId else none

def presentedKey (authentication : ClientAuthenticate) : Option DevicePublicKey := do
  let encoded ← decodeUtf8 authentication.publicKey.bytes
  keyFromStr keys encoded

def finish (store : Option DynamicClientStore) (pending : PendingAuthentication) (authentication : ClientAuthenticate) :
    Except AuthError AuthenticatedClient := do
  let key ← okOr (presentedKey keys authentication) .rejected
  require (pending.claimedFingerprint = utf8 (wireFingerprint key)) .rejected
  let name ← okOr ((a.staticIdentity pending.clientName key).or (dynamicIdentity keys store key)) .rejected
  let transcript ← okOr (loginTranscript pending.challenge pending.sessionId pending.version pending.clientName) .rejected
  require (keys.verify key transcript.encoded authentication.signature.bytes = true) .rejected
  pure ⟨name, fingerprint key, pending.sessionId⟩

variable {keys a} {a' : Authenticator} {clients : List AuthorizedClient} {client : AuthorizedClient} {key : DevicePublicKey}

/-- A client of the configuration is found under its name and under its fingerprint. -/
def Holds (keys : KeyFormats) (a : Authenticator) (client : AuthorizedClient) : Prop :=
  ∃ key, keyFromStr keys client.publicKey = some key ∧
    a.entriesByName.lookup client.name = some ⟨key, fingerprint key, client.enabled⟩ ∧
    a.namesByFingerprint.lookup (fingerprint key) = some client.name

theorem holds_addClient (h : a.addClient keys client = .ok a') :
    Holds keys a' client ∧ ∀ other, Holds keys a other → Holds keys a' other := by
  simp only [addClient, bind_eq_ok, okOr_eq_ok, require_eq_ok, pure_eq_ok] at h
  obtain ⟨key, hkey, -, ⟨hname, hfingerprint⟩, rfl⟩ := h
  refine ⟨⟨key, hkey, Finmap.lookup_insert _, Finmap.lookup_insert _⟩, ?_⟩
  rintro other ⟨key', hkey', hentry, hnames⟩
  have hother : other.name ≠ client.name := by
    intro heq
    exact hname (Finmap.mem_of_lookup_eq_some (heq ▸ hentry))
  have hdistinct : fingerprint key' ≠ fingerprint key := by
    intro heq
    exact hfingerprint (Finmap.mem_of_lookup_eq_some (heq ▸ hnames))
  exact ⟨key', hkey', (Finmap.lookup_insert_of_ne _ hother).trans hentry, (Finmap.lookup_insert_of_ne _ hdistinct).trans hnames⟩

theorem holds_foldlM (h : clients.foldlM (addClient keys) a = .ok a') :
    (∀ other, Holds keys a other → Holds keys a' other) ∧ ∀ client ∈ clients, Holds keys a' client := by
  induction clients generalizing a with
  | nil =>
      obtain rfl := Except.ok.inj h
      exact ⟨fun _ => id, fun _ hmem => absurd hmem List.not_mem_nil⟩
  | cons first rest ih =>
      obtain ⟨a₁, hfirst, hrest⟩ := bind_eq_ok.mp h
      obtain ⟨hholds, hkept⟩ := holds_addClient hfirst
      obtain ⟨hkept', hclients⟩ := ih hrest
      refine ⟨fun other hother => hkept' other (hkept other hother), fun client hclient => ?_⟩
      rcases List.mem_cons.mp hclient with rfl | hclient
      · exact hkept' client hholds
      · exact hclients client hclient

/-- Under no name does the configuration let in the key of a client that it disables. -/
theorem staticIdentity_disabled (h : newWithDynamic keys clients = .ok a) (hclient : client ∈ clients)
    (hdisabled : client.enabled = false) (hkey : keyFromStr keys client.publicKey = some key) (clientName : String) :
    a.staticIdentity clientName key = none := by
  obtain ⟨key', hkey', hentry, hnames⟩ := (holds_foldlM h).2 client hclient
  obtain rfl : key = key' := Option.some.inj (hkey.symm.trans hkey')
  refine Option.map_eq_none_iff.mpr (Option.filter_eq_none_iff.mpr fun entry hlookup hfits => ?_)
  obtain ⟨henabled, -, -, hname⟩ := of_decide_eq_true hfits
  obtain rfl : clientName = client.name := Option.some.inj (hname.symm.trans hnames)
  obtain rfl := Option.some.inj (hlookup.symm.trans hentry)
  exact Bool.false_ne_true (hdisabled.symm.trans henabled)

/-- The name of a client that logs in is the one that its key has. -/
theorem finish_eq_ok {store : Option DynamicClientStore} {pending : PendingAuthentication} {authentication : ClientAuthenticate}
    {identity : AuthenticatedClient} (h : a.finish keys store pending authentication = .ok identity) :
    ∃ key, presentedKey keys authentication = some key ∧ identity.fingerprint = fingerprint key ∧
      (a.staticIdentity pending.clientName key = some identity.name ∨ dynamicIdentity keys store key = some identity.name) := by
  simp only [finish, bind_eq_ok, okOr_eq_ok, require_eq_ok, pure_eq_ok] at h
  obtain ⟨key, hkey, -, -, name, hname, transcript, -, -, -, rfl⟩ := h
  refine ⟨key, hkey, rfl, ?_⟩
  rcases Option.or_eq_some_iff.mp hname with hstatic | ⟨-, hdynamic⟩
  · exact .inl hstatic
  · exact .inr hdynamic

end Authenticator

end Rustgo.Auth
