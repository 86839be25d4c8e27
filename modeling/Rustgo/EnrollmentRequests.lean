import Rustgo.EnrollmentSpecs

namespace Rustgo.ClientEnrollment

open Durable Contract
open Enrollment
open Numerals (hexBytes parseHex isDigit mem_hexBytes length_hexBytes parseHex_hexBytes)
open Postcard.Format (utf8)
open Protocol

variable {keys : Keys} {d d' : Disk} {m m' : PendingMetadata} {key : EnrollmentKeyMaterial} {reuse : Bool}

section Texts

theorem utf8ByteSize_hexBytes (bytes : Bytes) : (String.ofList (hexBytes bytes)).utf8ByteSize = 2 * bytes.length := by
  rw [EnrollmentKeyMaterial.utf8ByteSize_ascii fun c hc => (EnrollmentKeyMaterial.mem_checksum hc).1, length_hexBytes]

theorem utf8ByteSize_requestIdOf (bytes : Vector UInt8 16) : (requestIdOf bytes).utf8ByteSize = 32 := by
  rw [requestIdOf, utf8ByteSize_hexBytes, Vector.length_toList]

theorem all_isDigit_hexBytes (bytes : Bytes) : (hexBytes bytes).all (isDigit 16) = true := by
  have hall : ∀ c ∈ "0123456789abcdef".toList, isDigit 16 c = true := List.all_iff_forall_prop.mp (by decide)
  exact List.all_eq_true.mpr fun c hc => hall c (mem_hexBytes hc)

theorem fingerprint_newMetadata (key : EnrollmentKeyMaterial) (reuse : Bool) (id publicKey : String) (candidate : KeyPath)
    (existing : Bool) : (newMetadata key reuse id publicKey candidate existing).fingerprint = some key.certificateFingerprint := by
  simp only [PendingMetadata.fingerprint, newMetadata, String.toList_ofList, parseHex_hexBytes, Option.bind_some,
    toVector_toList]

theorem purpose_newMetadata (key : EnrollmentKeyMaterial) (reuse : Bool) (id publicKey : String) (candidate : KeyPath)
    (existing : Bool) : (newMetadata key reuse id publicKey candidate existing).purpose = key.purpose := by
  unfold PendingMetadata.purpose newMetadata kindOf
  cases key.purpose <;> rfl

theorem canonical_ne_empty {address canonical : String} (h : canonicalEnrollmentServerAddr address = .ok canonical) :
    canonical ≠ "" := by
  intro hempty
  have hcanonical := canonical_idempotent h
  rw [hempty] at hcanonical
  cases hcanonical

end Texts

section Loads

theorem isValid_newMetadata {id publicKey : String} {candidate : KeyPath} {existing final : Bool} (hsize : id.utf8ByteSize = 32)
    (haddr : key.serverAddr ≠ "") (hfinal : ¬(reuse = false ∧ key.purpose = .enroll ∧ final = true))
    (hcandidate : existing = true → candidate = .final) :
    (newMetadata key reuse id publicKey candidate existing).isValid final = true := by
  have hdigits := all_isDigit_hexBytes key.certificateFingerprint.toList
  have hfingerprint := utf8ByteSize_hexBytes key.certificateFingerprint.toList
  rw [Vector.length_toList] at hfingerprint
  simp only [PendingMetadata.isValid, newMetadata, decide_eq_true_eq]
  refine ⟨trivial, .inr trivial, ?_, hsize, haddr, hfingerprint, ?_, trivial, ?_, ?_⟩
  · unfold kindOf
    cases key.purpose <;> simp
  · rw [String.toList_ofList]
    exact hdigits
  · rintro ⟨hkind, hexists, -, hallow⟩
    simp only [Bool.or_eq_false_iff, decide_eq_false_iff_not] at hallow
    obtain ⟨hreuse, hpurpose⟩ := hallow
    refine hfinal ⟨hreuse, ?_, hexists⟩
    cases hkey : key.purpose with
    | enroll => rfl
    | reEnroll => exact absurd hkey hpurpose
  · rintro ⟨hexisting, hne⟩
    exact hne (hcandidate hexisting)

theorem Disk.recovered_of_exists (h : (d.keyFiles m.candidatePrivateKey).isSome = true) : d.recovered keys m = m := by
  rw [Disk.recovered, h, recover_of_exists]

theorem Disk.Validates.exists (h : d.Validates keys m) : (d.keyFiles m.candidatePrivateKey).isSome = true := by
  obtain ⟨key, hkey, -⟩ := h.candidate
  rw [hkey, Option.isSome_some]

/-- New metadata is loaded as it was written. -/
theorem Created.loads (h : Created keys d key reuse m d') (hfree : ¬d.Occupied key reuse) (haddr : key.serverAddr ≠ "") :
    d'.Loads keys m := by
  have hfinal : ¬(reuse = false ∧ key.purpose = .enroll ∧ (d.keyFiles .final).isSome = true) := fun h => hfree (.inr h)
  have hload : ∀ {d' : Disk}, d'.metadata = some m → d'.Validates keys m → d'.Loads keys m :=
    fun hmetadata hvalid => ⟨m, hmetadata, Disk.recovered_of_exists hvalid.exists, hvalid⟩
  cases h with
  | reused existing bytes hreuse hkey =>
      refine hload rfl ⟨isValid_newMetadata (utf8ByteSize_requestIdOf bytes) haddr hfinal fun _ => rfl, existing, hkey, rfl⟩
  | generated secret bytes hnew =>
      refine hload rfl ⟨isValid_newMetadata (utf8ByteSize_requestIdOf bytes) haddr ?_ (fun h => by cases h), secret, ?_, rfl⟩
      · rw [show (newMetadata key reuse (requestIdOf bytes) (keys.publicKey secret) (.candidate (requestIdOf bytes))
          false).finalPrivateKey = .final from rfl]
        rwa [Disk.keyFiles_setKey_of_ne _ _ (by simp)]
      · simp [Disk.loadKey, newMetadata]

theorem Binds.loads {text text' : String} (h : Binds d m text m' text' d') (hloads : d.Loads keys m) : d'.Loads keys m' := by
  cases h with
  | kept => exact hloads
  | stored =>
      obtain ⟨-, -, -, hvalid⟩ := hloads
      exact ⟨_, rfl, Disk.recovered_of_exists hvalid.exists, hvalid⟩

/-- Binding an intent changes nothing else of the metadata. -/
theorem Binds.same {text text' : String} (h : Binds d m text m' text' d') : m' = { m with approvalIntent := some text' } := by
  cases h with
  | kept existing h => rw [← h]
  | stored => rfl

theorem decode_size {text : String} {intent : RegistrationIntent} (h : RegistrationIntent.decode text = .ok intent) :
    text.utf8ByteSize ≤ maxEnrollmentKeyBytes := by
  rw [RegistrationIntent.decode, Checks.bind_eq_ok] at h
  obtain ⟨_, hsize, -⟩ := h
  exact Nat.not_lt.mp (Checks.require_eq_ok.mp hsize)

theorem signedIntent_size {text : String} {intent : RegistrationIntent} (h : RegistrationIntent.decode text = .ok intent)
    (secret : PrivateKey) (m : PendingMetadata) : (signedIntent keys secret m intent).utf8ByteSize ≤ maxEnrollmentKeyBytes :=
  decode_size (RegistrationIntent.decode_wireCredential (RegistrationIntent.encode_of_decode h).1
    (some (signApproval keys secret m.requestId intent.encode)))

theorem legacy_size {text : String} (h : EnrollmentKeyMaterial.decode text = .ok key) :
    text.utf8ByteSize ≤ maxEnrollmentKeyBytes := by
  rw [EnrollmentKeyMaterial.decode, Checks.bind_eq_ok] at h
  obtain ⟨_, hsize, -⟩ := h
  exact Nat.not_lt.mp fun hlt => (Checks.require_eq_ok.mp hsize) (.inr hlt)

/-- The request fits into its bounds. -/
theorem enrollmentRequest_ok {credential : String} (h : d.Loads keys m) (hsize : credential.utf8ByteSize ≤ maxEnrollmentKeyBytes) :
    ∃ request, enrollmentRequest m credential = .ok request := by
  obtain ⟨-, -, -, hvalid, secret, -, hpublic⟩ := h
  have hid : m.requestId.utf8ByteSize = 32 := by
    simp only [PendingMetadata.isValid, decide_eq_true_eq] at hvalid
    exact hvalid.2.2.2.1
  have hpublic' : (utf8 m.publicKey).length ≤ maxPublicKeyBytes := by
    rw [← hpublic]
    exact keys.size_le secret
  have hid' : m.requestId.utf8ByteSize ≤ maxEnrollmentRequestIdBytes := hid ▸ by decide
  simp only [enrollmentRequest, BoundedString.tryFrom, BoundedBytes.tryFrom, dif_pos hsize, dif_pos hpublic', dif_pos hid']
  exact ⟨_, rfl⟩

end Loads

section Attempt

variable {allowed : Op → Choice → World → Prop} {guard : Op → World → Prop} {b w : World} {config : ClientSection}
  {credential : Credential} {certificate : Fingerprint}

/-- The server that an attempt turns to. -/
inductive EndpointOf (keys : Keys) (config : ClientSection) (d : Disk) : Credential → Endpoint → Prop
  | pending (intent m fingerprint) (hloads : d.Loads keys m) (haddr : m.serverAddr = config.serverAddr)
      (hfingerprint : m.fingerprint = some fingerprint) :
      EndpointOf keys config d (.approval intent) ⟨.pinned fingerprint, config.serverName, config.serverAddr⟩
  | first (intent trust) (hnone : d.metadata = none) (htrust : FirstTrust config trust) :
      EndpointOf keys config d (.approval intent) ⟨trust, config.serverName, config.serverAddr⟩
  | legacy (key name) (hname : serverName key.serverAddr = .ok name) :
      EndpointOf keys config d (.legacy key) ⟨.pinned key.certificateFingerprint, name, key.serverAddr⟩

/-- The endpoint of the attempt can be found. -/
def Findable (keys : Keys) (config : ClientSection) (d : Disk) : Credential → Prop
  | .approval _ => Reachable keys config d
  | .legacy key => ∃ name, serverName key.serverAddr = .ok name

theorem serverName_isLocal {address : String} {error : EnrollmentError} (h : serverName address = .error error) : error.IsLocal := by
  unfold serverName at h
  split at h <;>
  · rw [Checks.okOr_eq_error] at h
    exact h.2 ▸ fun code => by simp

theorem wp_endpoint {Q : Endpoint → World → Prop} {E : EnrollmentError → World → Prop} (hw : Moved b d w)
    (hguard : Quiet guard b d) (hok : ∀ server v, EndpointOf keys config d credential server → Moved b d v → Q server v)
    (herror : ∀ error v, error.IsLocal → (Findable keys config d credential → Faulty allowed b d) → Moved b d v → E error v) :
    (contract allowed guard).wp (endpoint keys config credential) Q E w := by
  cases credential with
  | approval intent =>
      refine wp_approvalEndpoint hw hguard (fun m fingerprint v hloads haddr hfingerprint hv => ?_) (fun trust v hnone htrust hv => ?_) herror
      · exact hok _ v (.pending intent m fingerprint hloads haddr hfingerprint) hv
      · exact hok _ v (.first intent trust hnone htrust) hv
  | legacy key =>
      refine wp_ofExcept (fun name hname => ?_) fun error hfailed t ht => ?_
      · refine wp_openTls hw (hguard _ · rfl) (fun v hv t ht => hok _ t (.legacy key name hname) (hv.stay ht)) fun v hfails hv t ht => ?_
        exact herror _ t (fun code => by simp) (fun _ => hfails.faulty) (hv.stay ht)
      · refine herror error t (serverName_isLocal hfailed) (fun ⟨name, hname⟩ => ?_) (hw.stay ht)
        cases hname.symm.trans hfailed

/-- The metadata of the attempt is stored, from before or anew for one of these keys. -/
inductive Held (keys : Keys) (made : EnrollmentKeyMaterial → Prop) (d : Disk) : Disk → PendingMetadata → Prop
  | loaded {m : PendingMetadata} (h : d.Loads keys m) : Held keys made d d m
  | created {e : Disk} {m : PendingMetadata} {key : EnrollmentKeyMaterial} {reuse : Bool} (hmade : made key)
      (hfree : ¬d.Occupied key reuse) (haddr : key.serverAddr ≠ "") (hnew : m.requestId ∉ e.metadataTemps)
      (h : Created keys d key reuse m e) : Held keys made d e m

theorem Held.loads {made : EnrollmentKeyMaterial → Prop} {e : Disk} (h : Held keys made d e m) : e.Loads keys m := by
  cases h with
  | loaded h => exact h
  | created _ hfree haddr _ h => exact h.loads hfree haddr

/-- What an attempt sends. -/
inductive Prepared (keys : Keys) (config : ClientSection) (encodedKey : String) (e : Disk) (m : PendingMetadata) :
    Credential → String → Prop
  | approval {intent : RegistrationIntent} {text result secret} (htext : m.approvalIntent = some text) (hresult : RegistrationIntent.decode text = .ok result)
      (hsecret : e.loadKey m.candidatePrivateKey = some secret) :
      Prepared keys config encodedKey e m (.approval intent) (signedIntent keys secret m result)
  | legacy {key : EnrollmentKeyMaterial} : Prepared keys config encodedKey e m (.legacy key) encodedKey

/-- The metadata belongs to the server and the purpose of the attempt. -/
def Matches (m : PendingMetadata) (key : EnrollmentKeyMaterial) : Prop :=
  m.purpose = key.purpose ∧ m.serverAddr = key.serverAddr ∧ m.fingerprint = some key.certificateFingerprint

theorem Created.matches {e : Disk} (h : Created keys d key reuse m e) : Matches m key := by
  cases h <;> exact ⟨purpose_newMetadata _ _ _ _ _ _, rfl, fingerprint_newMetadata _ _ _ _ _ _⟩

theorem Created.approvalIntent {e : Disk} (h : Created keys d key reuse m e) : m.approvalIntent = none := by
  cases h <;> rfl

/-- The rest of an attempt from its request on. -/
def finish (keys : Keys) (config : ClientSection) (key : EnrollmentKeyMaterial) (m : PendingMetadata) (request : EnrollmentRequest) :
    Action EnrollmentCompletion := do
  let completion ← submit request
  updateConfig config key completion.clientId
  promote keys m
  pure completion

theorem parseCredential_isLocal {encodedKey : String} {error : EnrollmentError} (h : parseCredential encodedKey = .error error) :
    error.IsLocal := by
  unfold parseCredential at h
  split at h
  · cases h
  · split at h
    · cases h
    · obtain rfl := Except.error.inj h
      exact ofKeyError_isLocal _

theorem keyOf_isLocal {address : String} {error : EnrollmentError} (h : keyOf address certificate credential = .error error) :
    error.IsLocal := by
  unfold keyOf forVerifiedServer at h
  split at h
  · split at h
    · cases h
    · obtain rfl := Except.error.inj h
      exact ofKeyError_isLocal _
  · cases h

/-- The address that the attempt connects to. -/
def addressOf (config : ClientSection) : Credential → String
  | .approval _ => config.serverAddr
  | .legacy key => key.serverAddr

theorem EndpointOf.address {server : Endpoint} (h : EndpointOf keys config d credential server) :
    server.address = addressOf config credential := by
  cases h <;> rfl

theorem new_serverAddr_ne_empty {purpose : EnrollmentPurpose} {address : String} {fingerprint token : Fingerprint}
    (h : EnrollmentKeyMaterial.new purpose address fingerprint token = .ok key) : key.serverAddr ≠ "" := by
  rw [EnrollmentKeyMaterial.new, Checks.bind_eq_ok] at h
  obtain ⟨canonical, hcanonical, h⟩ := h
  rw [Checks.pure_eq_ok] at h
  exact h ▸ canonical_ne_empty hcanonical

theorem forVerifiedServer_eq_ok {purpose : EnrollmentPurpose} {address : String} {fingerprint : Fingerprint} :
    forVerifiedServer purpose address fingerprint = .ok key ↔
      ∃ canonical, canonicalEnrollmentServerAddr address = .ok canonical ∧
        key = ⟨canonical, fingerprint, purpose, Vector.replicate 32 0⟩ := by
  unfold forVerifiedServer
  constructor
  · intro h
    split at h
    · next heq =>
      obtain rfl := Except.ok.inj h
      rw [EnrollmentKeyMaterial.new, Checks.bind_eq_ok] at heq
      obtain ⟨canonical, hcanonical, heq⟩ := heq
      exact ⟨canonical, hcanonical, (Checks.pure_eq_ok.mp heq).symm⟩
    · cases h
  · rintro ⟨canonical, hcanonical, rfl⟩
    rw [EnrollmentKeyMaterial.new, hcanonical]
    rfl

theorem keyOf_serverAddr_ne_empty {encodedKey address : String} (hparse : parseCredential encodedKey = .ok credential)
    (h : keyOf address certificate credential = .ok key) : key.serverAddr ≠ "" := by
  cases credential with
  | approval intent =>
      obtain ⟨canonical, hcanonical, rfl⟩ := forVerifiedServer_eq_ok.mp h
      exact canonical_ne_empty hcanonical
  | legacy legacyKey =>
      obtain rfl := Except.ok.inj h
      unfold parseCredential at hparse
      split at hparse
      · cases hparse
      · split at hparse
        · next hdecode =>
          obtain rfl := Credential.legacy.inj (Except.ok.inj hparse)
          simp only [EnrollmentKeyMaterial.decode, EnrollmentKeyMaterial.ofPayload, Checks.bind_eq_ok, Prod.exists] at hdecode
          obtain ⟨_, -, _, -, _, _, -, _, -, _, -, _, -, _, -, _, -, _, -, _, -, _, -, _, -, _, -, hnew⟩ := hdecode
          exact new_serverAddr_ne_empty hnew
        · cases hparse

/-- Nothing stands in the way of the attempt. -/
structure Admissible (allowed : Op → Choice → World → Prop) (b : World) (keys : Keys) (config : ClientSection) (certificate : Fingerprint)
    (reuse : Bool) (d : Disk) (credential : Credential) : Prop where
  findable : Findable keys config d credential
  trusted : ∀ server, EndpointOf keys config d credential server → server.trust.accepts certificate = true
  matching : ∃ key, keyOf (addressOf config credential) certificate credential = .ok key ∧
    ((∃ m, d.Loads keys m ∧ Matches m key ∧ ∀ intent, credential = .approval intent → Bindable config d m true intent) ∨
      d.metadata = none ∧ ¬d.Occupied key (credential.isApproval && reuse) ∧ Fresh allowed b d ∧
        ∀ intent, credential = .approval intent → ∃ result, RegistrationIntent.decode intent.encode = .ok result)

section Stages

variable {made : EnrollmentKeyMaterial → Prop} {encodedKey : String} {P : Disk → Prop} {Q : EnrollmentCompletion → World → Prop} {E : EnrollmentError → World → Prop}

/-- What is needed of the files that an attempt goes through before it sends its request. -/
structure Passes (allowed : Op → Choice → World → Prop) (guard : Op → World → Prop) (keys : Keys) (made : EnrollmentKeyMaterial → Prop)
    (b : World) (d : Disk) (P : Disk → Prop) (E : EnrollmentError → World → Prop) : Prop where
  start : P d
  quiet : ∀ e, P e → Quiet guard b e
  scratch : d.metadata = none → ∀ e, d.Scratch e → P e
  held : ∀ e m, Held keys made d e m → P e
  stored : ∀ e m text result, Held keys made d e m → m.approvalIntent = none → RegistrationIntent.decode text = .ok result →
    P { e with metadata := some { m with approvalIntent := some text } }
  temp : ∀ e m, Held keys made d e m → m.approvalIntent = none → Quiet guard b (e.withTemp m.requestId)
  torn : ∀ error e m v, error.IsLocal → Held keys made d e m → m.approvalIntent = none →
    Faulty allowed b (e.withTemp m.requestId) → Moved b (e.withTemp m.requestId) v → E error v

/-- What an attempt stores for its intent can be read again. -/
theorem chosenIntent_decodes {existed : Bool} {intent chosen result : RegistrationIntent} (h : chosenIntent config existed m intent = .ok chosen)
    (hresult : RegistrationIntent.decode intent.encode = .ok result) : ∃ result, RegistrationIntent.decode chosen.encode = .ok result := by
  unfold chosenIntent at h
  split at h
  · have hbuilt : RegistrationIntent.Built chosen := .client _ _ (mapError_eq_ok.mp h)
    have hdecode := RegistrationIntent.decode_wireCredential hbuilt none
    exact ⟨_, hdecode⟩
  · obtain rfl := Except.ok.inj h
    exact ⟨result, hresult⟩

/-- An attempt whose metadata is stored. -/
theorem wp_held {e : Disk} {existed : Bool} (h : Passes allowed guard keys made b d P E) (hw : Moved b e w) (hheld : Held keys made d e m)
    (hsend : ∀ e m request text v, P e → e.Loads keys m → Matches m key → Prepared keys config encodedKey e m credential text →
      enrollmentRequest m text = .ok request → Moved b e v → (contract allowed guard).wp (finish keys config key m request) Q E v)
    (hsize : ∀ legacyKey, credential = .legacy legacyKey → encodedKey.utf8ByteSize ≤ maxEnrollmentKeyBytes)
    (hdecodes : ∀ intent, credential = .approval intent → ∃ result, RegistrationIntent.decode intent.encode = .ok result)
    (herror : ∀ error e' v, error.IsLocal → P e' →
      (Matches m key → (∀ intent, credential = .approval intent → Bindable config e m existed intent) → ∃ e, Faulty allowed b e) →
      Moved b e' v → E error v) :
    (contract allowed guard).wp (do
      Prog.require (m.purpose = key.purpose ∧ m.serverAddr = key.serverAddr ∧ m.fingerprint = some key.certificateFingerprint)
        EnrollmentError.invalidPendingState
      let (pending, text) ← wireCredential keys config encodedKey existed m credential
      let request ← Prog.ofExcept (enrollmentRequest pending text)
      let completion ← submit request
      updateConfig config key completion.clientId
      promote keys pending
      pure completion) Q E w := by
  have hloads := hheld.loads
  have hP := h.held e m hheld
  have hbound : ∀ {intent chosen m' text' d'}, credential = .approval intent → chosenIntent config existed m intent = .ok chosen →
      Binds e m chosen.encode m' text' d' → P d' := by
    intro intent chosen m' text' d' hintent hchosen hbinds
    cases hbinds with
    | kept => exact hP
    | stored hnone =>
        obtain ⟨_, hresult⟩ := hdecodes intent hintent
        obtain ⟨result, hresult⟩ := chosenIntent_decodes hchosen hresult
        exact h.stored e m chosen.encode result hheld hnone hresult
  have hfinish : ∀ e m text v, P e → e.Loads keys m → Matches m key → Prepared keys config encodedKey e m credential text →
      text.utf8ByteSize ≤ maxEnrollmentKeyBytes → Moved b e v →
      (contract allowed guard).wp (do
        let request ← Prog.ofExcept (enrollmentRequest m text)
        finish keys config key m request) Q E v := by
    intro e m text v hP hloads hmatch hprepared hsize hv
    refine wp_ofExcept (fun request hrequest => hsend e m request text v hP hloads hmatch hprepared hrequest hv) fun error hfailed => ?_
    obtain ⟨request, hrequest⟩ := enrollmentRequest_ok hloads hsize
    cases hrequest.symm.trans hfailed
  refine wp_require (fun hmatch => ?_) fun hmatch t ht =>
    herror _ e t (fun code => by simp) hP (fun h _ => absurd h hmatch) (hw.stay ht)
  cases credential with
  | approval intent =>
      refine wp_bind.mpr (wp_wireCredential hw (h.quiet e hP) (fun hnone => h.temp e m hheld hnone)
        (fun chosen m' text d' hchosen hbinds => h.quiet d' (hbound rfl hchosen hbinds))
        (fun chosen m' text result secret d' v hchosen hbinds hresult hsecret hv => ?_)
        (fun error v hlocal hfaulty hv => herror error e v hlocal hP (fun _ hbindable => ⟨e, hfaulty (hbindable intent rfl)⟩) hv)
        (fun error chosen m' text d' v hlocal hchosen hbinds hfaulty hv => ?_)
        fun error v hlocal hnone hfaulty hv => h.torn error e m v hlocal hheld hnone hfaulty hv)
      · have hsame := hbinds.same
        refine hfinish d' m' _ v (hbound rfl hchosen hbinds) (hbinds.loads hloads) (by rw [hsame]; exact hmatch)
          (.approval (by rw [hsame]) hresult (hbinds.loadKey _ ▸ hsecret)) (signedIntent_size hresult secret m') hv
      · refine herror error d' v hlocal (hbound rfl hchosen hbinds) (fun _ hbindable => ⟨d', hfaulty (hbindable intent rfl) ?_⟩) hv
        obtain ⟨-, -, -, -, secret, hsecret, -⟩ := hloads
        rw [hsecret, Option.isSome_some]
  | legacy legacyKey => exact hfinish e m encodedKey w hP hloads hmatch .legacy (hsize legacyKey rfl) hw

theorem legacy_of_parse {legacyKey : EnrollmentKeyMaterial} (h : parseCredential encodedKey = .ok (.legacy legacyKey)) :
    EnrollmentKeyMaterial.decode encodedKey = .ok legacyKey := by
  unfold parseCredential at h
  split at h
  · cases h
  · split at h
    · next hdecode =>
      obtain rfl := Credential.legacy.inj (Except.ok.inj h)
      exact hdecode
    · cases h

theorem approval_of_parse {intent : RegistrationIntent} (h : parseCredential encodedKey = .ok (.approval intent)) :
    RegistrationIntent.decode encodedKey = .ok intent := by
  unfold parseCredential at h
  split at h
  · next hdecode =>
    obtain rfl := Credential.approval.inj (Except.ok.inj h)
    exact hdecode
  · split at h <;> cases h

/-- An intent that was read can be read again. -/
theorem decode_encode_of_decode {intent : RegistrationIntent} (h : RegistrationIntent.decode encodedKey = .ok intent) :
    ∃ result, RegistrationIntent.decode intent.encode = .ok result :=
  ⟨_, RegistrationIntent.decode_wireCredential (RegistrationIntent.encode_of_decode h).1 none⟩

/-- An attempt up to its request, whatever it is made with. -/
theorem wp_enrollInner (h : Passes allowed guard keys made b d P E) (hw : Moved b d w)
    (hmade : ∀ credential certificate key, parseCredential encodedKey = .ok credential →
      keyOf (addressOf config credential) certificate credential = .ok key →
      (∃ server, EndpointOf keys config d credential server ∧ server.trust.accepts certificate = true ∧
        Possible allowed b d (.connect server.trust server.serverName server.address) (.certificate certificate)) → made key)
    (hsend : ∀ credential e m key certificate request text v, parseCredential encodedKey = .ok credential → P e →
      e.Loads keys m → Matches m key → keyOf (addressOf config credential) certificate credential = .ok key →
      Prepared keys config encodedKey e m credential text → enrollmentRequest m text = .ok request →
      (∃ server, EndpointOf keys config d credential server ∧ server.trust.accepts certificate = true ∧
        Possible allowed b d (.connect server.trust server.serverName server.address) (.certificate certificate)) →
      Moved b e v → (contract allowed guard).wp (finish keys config key m request) Q E v)
    (herror : ∀ error e v, error.IsLocal → P e →
      (∀ credential certificate, parseCredential encodedKey = .ok credential →
        Admissible allowed b keys config certificate reuse d credential → ¬Smooth allowed certificate) → Moved b e v → E error v) :
    (contract allowed guard).wp (enrollInner keys config encodedKey reuse) Q E w := by
  rw [enrollInner]
  have hquiet := h.quiet d h.start
  refine wp_ofExcept (fun credential hparse => ?_) fun error hfailed t ht => herror error d t (parseCredential_isLocal hfailed) h.start
    (fun credential _ hparse => by cases hparse.symm.trans hfailed) (hw.stay ht)
  have hfail : ∀ error e v, error.IsLocal → P e → (∀ certificate, Admissible allowed b keys config certificate reuse d credential →
      ¬Smooth allowed certificate) → Moved b e v → E error v := by
    intro error e v hlocal hP hno hv
    refine herror error e v hlocal hP (fun credential' certificate hparse' => ?_) hv
    obtain rfl := Except.ok.inj (hparse.symm.trans hparse')
    exact hno certificate
  refine wp_bind.mpr (wp_endpoint hw hquiet (fun server v hserver hv => ?_) fun error v hlocal hfaulty hv =>
    hfail error d v hlocal h.start (fun _ hadmissible hs => hs.not_faulty (hfaulty hadmissible.findable)) hv)
  refine wp_connect hv (hquiet _ · rfl) fun v choice answer hpossible hv hanswer => ?_
  refine wp_okOr (fun certificate hcertificate => ?_) fun hnone t ht =>
    hfail _ d t (fun code => by simp) h.start (fun certificate hadmissible hs => ?_) (hv.stay ht)
  · obtain ⟨rfl, haccepts⟩ : choice = .certificate certificate ∧ server.trust.accepts certificate = true := by
      rcases hanswer with ⟨-, rfl⟩ | ⟨fingerprint, rfl, rfl⟩
      · cases hcertificate
      · split at hcertificate
        · next haccepts =>
          obtain rfl := Option.some.inj hcertificate
          exact ⟨rfl, haccepts⟩
        · cases hcertificate
    have hsame : ∀ {certificate'}, Smooth allowed certificate' → certificate = certificate' := by
      obtain ⟨u, -, hallowed⟩ := hpossible
      exact fun hs => hs.certificate _ _ _ _ u hallowed
    rw [hserver.address]
    refine wp_ofExcept (fun key hkey => ?_) fun error hfailed t ht => hfail error d t (keyOf_isLocal hfailed) h.start (fun certificate' hadmissible hs => ?_) (hv.stay ht)
    · have hmatching : ∀ {certificate'}, Admissible allowed b keys config certificate' reuse d credential → Smooth allowed certificate' →
          (∃ m, d.Loads keys m ∧ Matches m key ∧ ∀ intent, credential = .approval intent → Bindable config d m true intent) ∨
            d.metadata = none ∧ ¬d.Occupied key (credential.isApproval && reuse) ∧ Fresh allowed b d ∧
              ∀ intent, credential = .approval intent → ∃ result, RegistrationIntent.decode intent.encode = .ok result := by
        intro certificate' hadmissible hs
        obtain ⟨key', hkey', hcase⟩ := hadmissible.matching
        rw [← hsame hs, hkey] at hkey'
        exact Except.ok.inj hkey' ▸ hcase
      have hgo : ∀ e m existed v, Held keys made d e m → (∀ certificate', Admissible allowed b keys config certificate' reuse d credential →
          Smooth allowed certificate' → Matches m key ∧ ∀ intent, credential = .approval intent → Bindable config e m existed intent) →
          Moved b e v → (contract allowed guard).wp (do
            Prog.require (m.purpose = key.purpose ∧ m.serverAddr = key.serverAddr ∧ m.fingerprint = some key.certificateFingerprint)
              EnrollmentError.invalidPendingState
            let (pending, text) ← wireCredential keys config encodedKey existed m credential
            let request ← Prog.ofExcept (enrollmentRequest pending text)
            let completion ← submit request
            updateConfig config key completion.clientId
            promote keys pending
            pure completion) Q E v := by
        intro e m existed v hheld hready hv
        refine wp_held h hv hheld (fun e m request text v hP hloads hmatch hprepared hrequest hv => ?_)
          (fun legacyKey hlegacy => legacy_size (legacy_of_parse (hlegacy ▸ hparse)))
          (fun intent hintent => decode_encode_of_decode (approval_of_parse (hintent ▸ hparse))) fun error e' v hlocal hP hcond hv => ?_
        · exact hsend credential e m key certificate request text v hparse hP hloads hmatch hkey hprepared hrequest
            ⟨server, hserver, haccepts, hpossible⟩ hv
        · refine hfail error e' v hlocal hP (fun certificate' hadmissible hs => ?_) hv
          obtain ⟨hmatch, hbindable⟩ := hready certificate' hadmissible hs
          obtain ⟨e'', hfaulty⟩ := hcond hmatch hbindable
          exact hs.not_faulty hfaulty
      refine wp_metadataExists hv (hquiet _ · rfl) fun v hv => ?_
      cases hexists : d.metadata.isSome with
      | true =>
          have hsome : d.metadata ≠ none := fun heq => by simp [heq] at hexists
          refine wp_bind.mpr (wp_load hv hquiet (fun m v hloads hv => ?_) fun error v hlocal hfaulty hv => ?_)
          · refine hgo d m true v (.loaded hloads) (fun certificate' hadmissible hs => ?_) hv
            rcases hmatching hadmissible hs with ⟨m', hloads', hmatch, hbindable⟩ | ⟨hnone, -⟩
            · rw [hloads.unique hloads']
              exact ⟨hmatch, hbindable⟩
            · exact absurd hnone hsome
          · refine hfail error d v hlocal h.start (fun certificate' hadmissible hs => ?_) hv
            rcases hmatching hadmissible hs with ⟨m', hloads', -⟩ | ⟨hnone, -⟩
            · exact hs.not_faulty (hfaulty ⟨m', hloads'⟩)
            · exact absurd hnone hsome
      | false =>
          have hnone : d.metadata = none := by simpa using hexists
          have hfirst : ∀ {certificate'}, Admissible allowed b keys config certificate' reuse d credential → Smooth allowed certificate' →
              ¬d.Occupied key (credential.isApproval && reuse) ∧ Fresh allowed b d ∧
                ∀ intent, credential = .approval intent → ∃ result, RegistrationIntent.decode intent.encode = .ok result := by
            intro certificate' hadmissible hs
            rcases hmatching hadmissible hs with ⟨m', ⟨stored, hstored, -⟩, -⟩ | ⟨-, hfirst⟩
            · rw [hnone] at hstored
              cases hstored
            · exact hfirst
          refine wp_bind.mpr (wp_createInner hv (fun e he => h.quiet e (h.scratch hnone e he)) (fun m e v hfree hnew hcreated hv => ?_)
            fun error e v hlocal hscratch hcond hv => ?_)
          · refine hgo e m false v (.created (hmade credential certificate key hparse hkey ⟨server, hserver, haccepts, hpossible⟩) hfree (keyOf_serverAddr_ne_empty hparse hkey) hnew hcreated) (fun certificate' hadmissible hs => ?_) hv
            refine ⟨hcreated.matches, fun intent hintent => ?_⟩
            obtain ⟨result, hresult⟩ := (hfirst hadmissible hs).2.2 intent hintent
            refine .inr ⟨hcreated.approvalIntent, hnew, intent, result, ?_, hresult⟩
            rw [chosenIntent, if_neg fun hexisted => Bool.false_ne_true hexisted.1]
          · refine hfail error e v hlocal (h.scratch hnone e hscratch) (fun certificate' hadmissible hs => ?_) hv
            obtain ⟨hfree, hfresh, -⟩ := hfirst hadmissible hs
            obtain ⟨e', hfaulty⟩ := hcond hfree hfresh
            exact hs.not_faulty hfaulty
    · obtain ⟨key, hkey, -⟩ := hadmissible.matching
      rw [← hsame hs] at hkey
      cases hkey.symm.trans hfailed
  · rcases hanswer with ⟨rfl, -⟩ | ⟨fingerprint, rfl, rfl⟩
    · exact hs.not_faulty hpossible.faulty
    · obtain ⟨u, -, hallowed⟩ := hpossible
      rw [hs.certificate _ _ _ _ u hallowed, if_pos (hadmissible.trusted server hserver)] at hnone
      cases hnone

end Stages

end Attempt

end Rustgo.ClientEnrollment
