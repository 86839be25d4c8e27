import Rustgo.EnrollmentKeys
import Rustgo.Registry
import Rustgo.StaticIdentities

namespace Rustgo.Auth

open Checks Enrollment Protocol Tables
open Orchestration (DevicePublicKey)
open Registry (ClientRegistry DeviceName SessionRuntime)

section Client

/-- What the configuration of a client holds of its identity. -/
structure ClientSettings where
  name : BoundedString maxClientNameBytes
  heartbeatIntervalSecs : UInt32

def ClientSettings.hello (config : ClientSettings) (fingerprint : BoundedBytes maxFingerprintBytes) : ClientHello :=
  ⟨config.name, fingerprint, config.heartbeatIntervalSecs⟩

/-- The part of a request to open a stream that its data channel repeats. -/
structure OpenStream where
  kind : DataChannelKind
  tunnelId : UInt32
  targetId : UInt64
  bindingToken : BoundedBytes maxBindingTokenBytes

/-- What `setup_data_channel` sends first, for a TCP stream and for the UDP channel. -/
def ClientSettings.dataChannelBind (config : ClientSettings) (sessionId : BoundedBytes maxSessionIdBytes) (request : OpenStream) :
    DataChannelBind :=
  ⟨config.name, sessionId, request.kind, request.tunnelId, request.targetId, request.bindingToken⟩

end Client

section Server

/-- The identity that `claim_with_outbound` gets. A name that is too long for the bindings is refused. -/
def registered (identity : AuthenticatedClient) : Option Registry.AuthenticatedClient :=
  if h : identity.name.utf8ByteSize ≤ Rendezvous.maxDeviceNameBytes then
    some ⟨⟨identity.name, h⟩, identity.fingerprint, identity.sessionId⟩
  else none

/-- The session that `authenticate_data_channel` finds, before it looks for the binding. -/
def sessionOf (r : ClientRegistry) (request : DataChannelBind) : Option SessionRuntime :=
  (r.byName.lookup ⟨request.clientName.str, request.clientName.bounded⟩).filter fun runtime =>
    runtime.sessionId = request.sessionId.bytes

/-- The session of the client stands in the registry. -/
def Entered (r : ClientRegistry) (client : Registry.AuthenticatedClient) : Prop :=
  r.Consistent ∧ ∃ runtime, r.byName.lookup client.name = some runtime ∧ runtime.identity = client

/-- The data channel comes to the session that it belongs to. -/
def Reaches (r : ClientRegistry) (client : Registry.AuthenticatedClient) (request : DataChannelBind) : Prop :=
  ∃ runtime, sessionOf r request = some runtime ∧ runtime.identity = client

end Server

namespace Authenticator

variable {keys : KeyFormats} {a : Authenticator} {store : Option DynamicClientStore} {config : ClientSettings}
  {authentication : ClientAuthenticate} {identity : AuthenticatedClient} {key : DevicePublicKey}

/-- The configured name is the one of an entry of the static list with the key, or to the letter the one that the store
has for the key. -/
def Named (keys : KeyFormats) (a : Authenticator) (store : Option DynamicClientStore) (name : String) (key : DevicePublicKey) : Prop :=
  a.staticIdentity name key ≠ none ∨
    ∃ s client, store = some s ∧ s.clientByPublicKey (displayKey keys key) = some client ∧ client.displayId = name

section Names

variable {hello : ClientHello} {version : ProtocolVersion} {challenge : Option (Vector UInt8 32)} {random : Option (Vector UInt8 24)}
  {pending : PendingAuthentication} {name found : String}

theorem clientName_of_begin (h : (a.begin hello version challenge random).1 = .ok pending) :
    pending.clientName = hello.clientName.str := by
  unfold begin at h
  cases challenge with
  | none => cases h
  | some challenge =>
      obtain ⟨sessionId, -, h⟩ := bind_eq_ok.mp h
      obtain rfl := pure_eq_ok.mp h
      rfl

/-- What a handshake leaves of the tables. -/
theorem begin_tables (a : Authenticator) (hello : ClientHello) (version : ProtocolVersion) (challenge : Option (Vector UInt8 32))
    (random : Option (Vector UInt8 24)) : ((a.begin hello version challenge random).2.entriesByName = a.entriesByName) ∧
      (a.begin hello version challenge random).2.namesByFingerprint = a.namesByFingerprint := by
  unfold begin
  cases challenge with
  | none => exact ⟨rfl, rfl⟩
  | some challenge =>
      simp only [issueSessionId]
      split <;> exact ⟨rfl, rfl⟩

theorem finish_name (h : a.finish keys store pending authentication = .ok identity) (hkey : presentedKey keys authentication = some key) :
    (a.staticIdentity pending.clientName key).or (dynamicIdentity keys store key) = some identity.name ∧
      identity.sessionId = pending.sessionId := by
  simp only [finish, bind_eq_ok, okOr_eq_ok, require_eq_ok, pure_eq_ok] at h
  obtain ⟨key', hkey', -, -, name, hname, transcript, -, -, -, rfl⟩ := h
  obtain rfl : key = key' := Option.some.inj (hkey.symm.trans hkey')
  exact ⟨hname, rfl⟩

theorem staticIdentity_eq_some (h : a.staticIdentity name key = some found) : found = name := by
  obtain ⟨entry, -, hname⟩ := Option.map_eq_some_iff.mp h
  exact hname.symm

theorem dynamicIdentity_eq_some (h : dynamicIdentity keys store key = some found) :
    ∃ s client, store = some s ∧ s.clientByPublicKey (displayKey keys key) = some client ∧ client.displayId = found := by
  obtain ⟨s, hstore, h⟩ := Option.bind_eq_some_iff.mp h
  obtain ⟨client, hclient, h⟩ := Option.bind_eq_some_iff.mp h
  obtain ⟨-, hid⟩ := Option.ite_none_right_eq_some.mp h
  exact ⟨s, client, hstore, hclient, Option.some.inj hid⟩

/-- A static client is registered under the name that it gave, one of the store under the name that the store has for it. -/
theorem name_eq_iff (h : (a.staticIdentity name key).or (dynamicIdentity keys store key) = some found) :
    name = found ↔ Named keys a store name key := by
  rcases Option.or_eq_some_iff.mp h with hstatic | ⟨hstatic, hdynamic⟩
  · exact iff_of_true (staticIdentity_eq_some hstatic).symm (.inl (by simp [hstatic]))
  · obtain ⟨s, client, hstore, hclient, rfl⟩ := dynamicIdentity_eq_some hdynamic
    constructor
    · rintro rfl
      exact .inr ⟨s, client, hstore, hclient, rfl⟩
    · rintro (hnamed | ⟨s', client', hstore', hclient', rfl⟩)
      · exact absurd hstatic hnamed
      · obtain rfl := Option.some.inj (hstore.symm.trans hstore')
        obtain rfl := Option.some.inj (hclient.symm.trans hclient')
        rfl

end Names

section Channels

variable {r r' : ClientRegistry} {client : Registry.AuthenticatedClient} {sessionId : BoundedBytes maxSessionIdBytes} {request : OpenStream}

theorem registered_eq_some (h : registered identity = some client) :
    client.name.str = identity.name ∧ client.sessionId = identity.sessionId := by
  rw [registered] at h
  split at h
  · obtain rfl := Option.some.inj h
    exact ⟨rfl, rfl⟩
  · cases h

/-- A session is entered by its claim. -/
theorem entered_of_claim (hr : r.Consistent) {outbound : Registry.Outbound} {version : ProtocolVersion} {nowUnixMillis : UInt64}
    {guard : Registry.ControlSessionGuard} (h : r.claimWithOutbound client outbound version nowUnixMillis = .ok (guard, r')) :
    Entered r' client := by
  refine ⟨hr.claimWithOutbound h, ?_⟩
  simp only [ClientRegistry.claimWithOutbound, bind_eq_ok, require_eq_ok, okOr_eq_ok, pure_eq_ok, exists_const, Prod.mk.injEq] at h
  obtain ⟨_, _, _, generation, _, observed, _, _, rfl⟩ := h
  exact ⟨_, Finmap.lookup_insert _, rfl⟩

/-- A data channel comes to its session if and only if it names the session as the registry does. -/
theorem reaches_iff (h : Entered r client) (hsession : sessionId.bytes = client.sessionId) :
    Reaches r client (config.dataChannelBind sessionId request) ↔ config.name.str = client.name.str := by
  obtain ⟨hconsistent, own, hown, hidentity⟩ := h
  constructor
  · rintro ⟨runtime, hfound, rfl⟩
    obtain ⟨hlookup, -⟩ := Option.filter_eq_some_iff.mp hfound
    exact (congrArg BoundedString.str (hconsistent.named hlookup).1).symm
  · intro hname
    have hdevice : (⟨config.name.str, config.name.bounded⟩ : DeviceName) = client.name := BoundedString.str_inj hname
    refine ⟨own, Option.filter_eq_some_iff.mpr ⟨?_, ?_⟩, hidentity⟩
    · exact (congrArg r.byName.lookup hdevice).trans hown
    · have hown' : own.sessionId = client.sessionId := congrArg Registry.AuthenticatedClient.sessionId hidentity
      exact decide_eq_true (hown'.trans hsession.symm)

/-- The name that a client puts in its data channels is the one that its session is registered under exactly when its
configured name is the one that the server has for its key. Otherwise no data channel comes to the session. -/
theorem data_channel_named_iff {fingerprint : BoundedBytes maxFingerprintBytes} {version : ProtocolVersion}
    {challenge : Option (Vector UInt8 32)} {random : Option (Vector UInt8 24)} {pending : PendingAuthentication}
    (hbegin : (a.begin (config.hello fingerprint) version challenge random).1 = .ok pending)
    (hfinish : (a.begin (config.hello fingerprint) version challenge random).2.finish keys store pending authentication = .ok identity)
    (hkey : presentedKey keys authentication = some key) (hclient : registered identity = some client)
    (hsession : sessionId.bytes = identity.sessionId) :
    (((config.dataChannelBind sessionId request).clientName.str = client.name.str ∧
      ∀ r, Entered r client → Reaches r client (config.dataChannelBind sessionId request)) ↔
        Named keys a store config.name.str key) ∧
    (¬Named keys a store config.name.str key →
      ∀ r, Entered r client → ¬Reaches r client (config.dataChannelBind sessionId request)) := by
  obtain ⟨hname, hid⟩ := registered_eq_some hclient
  have hfound := (finish_name hfinish hkey).1
  have hstatic : (a.begin (config.hello fingerprint) version challenge random).2.staticIdentity config.name.str key =
      a.staticIdentity config.name.str key := by
    obtain ⟨hentries, hnames⟩ := begin_tables a (config.hello fingerprint) version challenge random
    rw [staticIdentity, staticIdentity, hentries, hnames]
  have hbegun : pending.clientName = config.name.str := clientName_of_begin hbegin
  rw [hbegun, hstatic] at hfound
  have hiff : config.name.str = client.name.str ↔ Named keys a store config.name.str key := by
    rw [hname]
    exact name_eq_iff hfound
  have hchannel : sessionId.bytes = client.sessionId := hsession.trans hid.symm
  refine ⟨⟨fun h => ?_, fun hnamed => ?_⟩, fun hnamed r hr hreaches => ?_⟩
  · exact hiff.mp h.1
  · exact ⟨hiff.mpr hnamed, fun r hr => (reaches_iff hr hchannel).mpr (hiff.mpr hnamed)⟩
  · exact hnamed (hiff.mp ((reaches_iff hr hchannel).mp hreaches))

end Channels

section Samples

open DynamicClientStore (sampleDevice sampleFormats sampleId sampleKey sampleKeys)

theorem utf8ByteSize_wireFingerprint (key : DevicePublicKey) : (wireFingerprint key).utf8ByteSize = 64 := by
  have hhex : wireFingerprint key = String.ofList (Numerals.hexBytes (Sha256.digest key.bytes.toList).toList) := rfl
  rw [hhex, EnrollmentKeyMaterial.utf8ByteSize_ascii fun c hc => (EnrollmentKeyMaterial.mem_checksum hc).1,
    Numerals.length_hexBytes, Vector.length_toList]

/-- The fingerprint that an honest client shows. -/
def ownFingerprint (key : DevicePublicKey) : BoundedBytes maxFingerprintBytes :=
  ⟨Postcard.Format.utf8 (wireFingerprint key), by
    rw [EnrollmentKeyMaterial.length_utf8, utf8ByteSize_wireFingerprint]
    decide⟩

/-- The sample formats, with every signature. -/
def acceptingKeys : KeyFormats := { sampleKeys with verify := fun _ _ _ => true }

def samplePublicKey : DevicePublicKey := ⟨DynamicClientStore.sampleBytes.toArray, by decide⟩

def noClients : Authenticator := ⟨∅, ∅, 0⟩

def sampleSettings : ClientSettings := ⟨⟨"node", by decide⟩, 5⟩

def samplePending : PendingAuthentication :=
  ⟨"node", (ownFingerprint samplePublicKey).bytes, List.replicate 32 0, List.replicate 32 0, ⟨0, 3⟩⟩

def sampleAuthentication : ClientAuthenticate := ⟨⟨Postcard.Format.utf8 sampleDevice, by decide⟩, ⟨[], Nat.zero_le _⟩⟩

theorem sample_begin : (noClients.begin (sampleSettings.hello (ownFingerprint samplePublicKey)) ⟨0, 3⟩
    (some (Vector.replicate 32 0)) (some (Vector.replicate 24 0))).1 = .ok samplePending := rfl

theorem sample_presentedKey : presentedKey acceptingKeys sampleAuthentication = some samplePublicKey := by
  have hread : keyFromStr acceptingKeys sampleDevice = some samplePublicKey := by decide +kernel
  rw [presentedKey, sampleAuthentication, Postcard.Format.decodeUtf8_utf8]
  exact hread

/-- The sample handshake goes through for whatever name the store has. -/
theorem sample_finish {a : Authenticator} {store : Option DynamicClientStore} {name : String}
    (h : (a.staticIdentity "node" samplePublicKey).or (dynamicIdentity acceptingKeys store samplePublicKey) = some name) :
    a.finish acceptingKeys store samplePending sampleAuthentication =
      .ok ⟨name, fingerprint samplePublicKey, List.replicate 32 0⟩ := by
  have htranscript : (loginTranscript (List.replicate 32 0) (List.replicate 32 0) ⟨0, 3⟩ "node").isSome = true := by
    decide +kernel
  obtain ⟨transcript, htranscript⟩ := Option.isSome_iff_exists.mp htranscript
  have hfingerprint : samplePending.claimedFingerprint = Postcard.Format.utf8 (wireFingerprint samplePublicKey) := by
    rw [samplePending, ownFingerprint]
  have hverify : acceptingKeys.verify samplePublicKey transcript.encoded sampleAuthentication.signature.bytes = true := by
    rw [acceptingKeys]
  simp only [finish, bind_eq_ok, okOr_eq_ok, require_eq_ok, pure_eq_ok]
  exact ⟨_, sample_presentedKey, (), hfingerprint, name, h, transcript, htranscript, (), hverify, rfl⟩

/-- A device is enrolled as `node`. -/
def enrolled : List Op := [
  .createClientWithToken "node" "a:1" (List.replicate 32 0) (60 * 10 ^ 9) 0 sampleId
    ((List.range 32).map UInt8.ofNat) (List.replicate 16 0),
  .consumeToken sampleKey sampleDevice "request" 0]

def storeAfter (ops : List Op) : DynamicClientStore := (DynamicClientStore.open ⟨4, 4⟩).performAll sampleFormats ops

theorem sampleRequest_known : (1 : UInt8) = 1 ∨ (1 : UInt8) = 2 := .inl rfl

def sampleRequest : OpenStream := ⟨⟨1, sampleRequest_known⟩, 1, 1, ⟨[], Nat.zero_le _⟩⟩

def sampleSession : BoundedBytes maxSessionIdBytes := ⟨List.replicate 32 0, by decide⟩

/-- The session of the sample handshake. -/
def sampleClient (name : DeviceName) : Registry.AuthenticatedClient := ⟨name, fingerprint samplePublicKey, List.replicate 32 0⟩

theorem data_channel_named_enrolled :
    let request := sampleSettings.dataChannelBind sampleSession sampleRequest
    request.clientName.str = "node" ∧
      ∀ r, Entered r (sampleClient ⟨"node", by decide⟩) → Reaches r (sampleClient ⟨"node", by decide⟩) request := by
  have hname : (noClients.staticIdentity "node" samplePublicKey).or
      (dynamicIdentity acceptingKeys (some (storeAfter enrolled)) samplePublicKey) = some "node" := by
    decide +kernel
  have hnamed : Named acceptingKeys noClients (some (storeAfter enrolled)) "node" samplePublicKey :=
    (name_eq_iff hname).mp rfl
  exact (data_channel_named_iff sample_begin (sample_finish hname) sample_presentedKey
    (dif_pos (show "node".utf8ByteSize ≤ Rendezvous.maxDeviceNameBytes by decide)) rfl).1.mpr hnamed

/-- A client that was renamed while it was away logs in, and names its data channels as before. -/
theorem renamed_client_unreachable : ¬∀ keys a store config fingerprint version challenge random pending authentication identity key
      client sessionId request,
    (Authenticator.begin a (ClientSettings.hello config fingerprint) version challenge random).1 = .ok pending →
    (a.begin (config.hello fingerprint) version challenge random).2.finish keys store pending authentication = .ok identity →
    presentedKey keys authentication = some key → registered identity = some client →
    BoundedBytes.bytes sessionId = identity.sessionId →
    (config.dataChannelBind sessionId request).clientName.str = client.name.str ∧
      ∀ r, Entered r client → Reaches r client (config.dataChannelBind sessionId request) := by
  intro h
  have hname : (noClients.staticIdentity "node" samplePublicKey).or
      (dynamicIdentity acceptingKeys (some (storeAfter (enrolled ++ [.renameClient sampleId "edge" 2 0]))) samplePublicKey) =
        some "edge" := by
    decide +kernel
  have hagree := (h _ _ _ sampleSettings _ _ _ _ _ _ _ _ (sampleClient ⟨"edge", by decide⟩) sampleSession sampleRequest
    sample_begin (sample_finish hname) sample_presentedKey
    (dif_pos (show "edge".utf8ByteSize ≤ Rendezvous.maxDeviceNameBytes by decide)) rfl).1
  exact absurd hagree (by decide)

end Samples

end Authenticator

end Rustgo.Auth
