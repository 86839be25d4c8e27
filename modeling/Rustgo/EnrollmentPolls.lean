import Rustgo.EnrollmentRequests

namespace Rustgo.ClientEnrollment

open Durable Contract
open Enrollment
open Protocol

variable {keys : Keys} {config : ClientSection} {certificate : Fingerprint} {w : World} {request : EnrollmentRequest}

/-- The two calls that ask for an approval. -/
inductive Call
  | registration (purpose : EnrollmentPurpose)
  | rotation
  deriving DecidableEq

namespace Call

def purpose : Call → EnrollmentPurpose
  | registration purpose => purpose
  | rotation => .reEnroll

def program (keys : Keys) (config : ClientSection) : Call → Action EnrollmentCompletion
  | registration purpose => requestRegistration keys config purpose
  | rotation => requestKeyRotation keys config

end Call

/-- A server with this certificate. -/
def polling (certificate : Fingerprint) : Contract Op Op.Answer Choice World :=
  contract (fun _ choice _ => ∀ fingerprint, choice = .certificate fingerprint → fingerprint = certificate) fun _ _ => True

/-- The same server again, while no operation fails and every request gets to it. -/
def pollingAgain (certificate : Fingerprint) : Contract Op Op.Answer Choice World :=
  contract (fun _ choice _ => choice ≠ .fails ∧ choice ≠ .unsent ∧
    ∀ fingerprint, choice = .certificate fingerprint → fingerprint = certificate) fun _ _ => True

/-- The files hold the request, ready to be sent again. -/
inductive Asked (keys : Keys) (config : ClientSection) (purpose : EnrollmentPurpose) (certificate : Fingerprint) (d : Disk)
    (request : EnrollmentRequest) : Prop
  | intro (m : PendingMetadata) (text : String) (intent : RegistrationIntent) (secret : PrivateKey) (hloads : d.Loads keys m)
      (haddr : canonicalEnrollmentServerAddr config.serverAddr = .ok m.serverAddr) (hpurpose : m.purpose = purpose)
      (hfingerprint : m.fingerprint = some certificate) (htext : m.approvalIntent = some text)
      (hintent : RegistrationIntent.decode text = .ok intent) (hsecret : d.loadKey m.candidatePrivateKey = some secret)
      (hrequest : enrollmentRequest m (signedIntent keys secret m intent) = .ok request)

section Encoded

variable {intent : RegistrationIntent}

theorem intentOf_built {purpose : EnrollmentPurpose} (h : intentOf config purpose = .ok intent) :
    RegistrationIntent.Built intent ∧ intent.purpose = purpose := by
  unfold intentOf at h
  have hprofile := mapError_eq_ok.mp h
  refine ⟨.profile _ _ _ hprofile, ?_⟩
  obtain ⟨-, -, rfl⟩ := RegistrationIntent.forProfile_eq_ok.mp hprofile
  rfl

theorem decode_encode_built (h : RegistrationIntent.Built intent) : RegistrationIntent.decode intent.encode = .ok intent := by
  have hdecode := RegistrationIntent.decode_wireCredential h none
  have hnone := RegistrationIntent.signature_of_built h
  obtain ⟨name, uid, profile, purpose, signature⟩ := intent
  obtain rfl : signature = none := hnone
  exact hdecode

theorem parseCredential_encode (h : RegistrationIntent.Built intent) : parseCredential intent.encode = .ok (.approval intent) := by
  rw [parseCredential, decode_encode_built h]

end Encoded

/-- The key of an approval is made from the address, the purpose and the certificate. -/
theorem keyOf_approval {address : String} {intent : RegistrationIntent} {key : EnrollmentKeyMaterial}
    (h : keyOf address certificate (.approval intent) = .ok key) :
    canonicalEnrollmentServerAddr address = .ok key.serverAddr ∧ key.purpose = intent.purpose ∧
      key.certificateFingerprint = certificate := by
  obtain ⟨canonical, hcanonical, rfl⟩ := forVerifiedServer_eq_ok.mp h
  exact ⟨hcanonical, rfl, rfl⟩

theorem wp_first_enrollInner {config' : ClientSection} {intent : RegistrationIntent} {reuse : Bool} {b : World} {d : Disk} (hw : Moved b d w)
    (hbuilt : RegistrationIntent.Built intent) (haddr : config'.serverAddr = config.serverAddr) :
    (polling certificate).wp (enrollInner keys config' intent.encode reuse) (fun _ _ => True) (fun error v => ∀ code,
      error = .rejected code → ∃ request, v.sent = b.sent ++ [request] ∧ Asked keys config intent.purpose certificate v.disk request) w := by
  have hlocal : ∀ {error : EnrollmentError} {v : World}, error.IsLocal → ∀ code, error = .rejected code →
      ∃ request, v.sent = b.sent ++ [request] ∧ Asked keys config intent.purpose certificate v.disk request :=
    fun hlocal code heq => absurd heq (hlocal code)
  refine wp_enrollInner (P := fun _ => True)
    ⟨trivial, fun _ _ _ _ _ _ => trivial, fun _ _ _ => trivial, fun _ _ _ => trivial, fun _ _ _ _ _ _ _ => trivial,
      fun _ _ _ _ _ _ _ _ => trivial, fun _ _ _ _ h _ _ _ _ => hlocal h⟩ hw (fun _ _ _ _ _ _ => trivial) ?_ fun error e v h _ _ _ => hlocal h
  intro credential e m key certificate' request text v hparse _ hloads hmatch hkey hprepared hrequest hserver hv
  obtain rfl := Except.ok.inj ((parseCredential_encode hbuilt).symm.trans hparse)
  obtain ⟨hcanonical, hpurpose, hfingerprint⟩ := keyOf_approval hkey
  obtain rfl : certificate' = certificate := by
    obtain ⟨server, -, -, u, -, hallowed⟩ := hserver
    exact hallowed certificate' rfl
  refine wp_bind.mpr (wp_submit hv (fun _ _ _ _ => trivial) (fun v _ _ => hlocal fun code => by simp)
    (fun v _ u _ _ _ => hlocal fun code => by simp) (fun v verdict code u hv _ _ hu => ?_) fun v verdict completion u hv _ _ hu => ?_)
  · intro code' _
    refine ⟨request, ?_, ?_⟩
    · rw [hu.sent, World.deliver, hv.sent]
    · cases hprepared with
      | approval htext hresult hsecret =>
        rw [hu.disk]
        exact .intro m _ _ _ hloads (by rw [hmatch.2.1, ← haddr]; exact hcanonical) (hmatch.1.trans hpurpose)
          (by rw [hmatch.2.2, hfingerprint]) htext hresult hsecret hrequest
  · refine wp_bind.mpr (wp_updateConfig hu (fun _ _ _ _ => trivial) (fun _ _ _ _ => trivial) (fun v _ hv => ?_)
      (fun error v h _ _ => hlocal h) fun error v h _ _ => hlocal h)
    exact wp_bind.mpr (wp_promote hv (fun _ _ _ _ => trivial) (fun _ _ _ _ => trivial) (fun _ _ _ _ _ => trivial)
      (fun v _ hv t ht => trivial) (fun error v h _ _ => hlocal h) fun error v h _ _ _ => hlocal h)

/-- A call that is answered has left its request in the files. -/
theorem wp_first (call : Call) : (polling certificate).wp (call.program keys config) (fun _ _ => True) (fun error v => ∀ code,
    error = .rejected code → ∃ request, v.sent = w.sent ++ [request] ∧ Asked keys config call.purpose certificate v.disk request) w := by
  have hfailed : ∀ {config : ClientSection} {purpose error}, intentOf config purpose = .error error → error.IsLocal := by
    intro config purpose error h
    unfold intentOf at h
    exact isLocal_of_mapError h
  cases call with
  | registration purpose =>
      refine wp_ofExcept (fun intent hintent => ?_) fun error h _ _ code heq => absurd heq (hfailed h code)
      obtain ⟨hbuilt, hpurpose⟩ := intentOf_built hintent
      exact hpurpose ▸ wp_first_enrollInner (.refl w) hbuilt rfl
  | rotation =>
      refine wp_bind.mpr (wp_sessionConfig (.refl w) (fun _ _ _ _ => trivial) (fun config' v hconfig hv => ?_)
        fun error v h _ _ _ code heq => absurd heq (h code))
      have haddr : config'.serverAddr = config.serverAddr := by
        rcases hconfig with rfl | ⟨-, profile, -, rfl⟩ <;> rfl
      refine wp_ofExcept (fun intent hintent => ?_) fun error h _ _ code heq => absurd heq (hfailed h code)
      obtain ⟨hbuilt, hpurpose⟩ := intentOf_built hintent
      rw [show Call.rotation.purpose = intent.purpose from hpurpose.symm]
      exact wp_first_enrollInner hv hbuilt haddr

section Again

variable {purpose : EnrollmentPurpose} {intent : RegistrationIntent} {reuse : Bool} {b : World} {d : Disk}

/-- A call while a request is stored goes on from the stored metadata. -/
theorem Asked.passes {allowed : Op → Choice → World → Prop} {E : EnrollmentError → World → Prop}
    (h : Asked keys config purpose certificate d request) : Passes allowed (fun _ _ => True) keys (fun _ => True) b d (· = d) E := by
  obtain ⟨m, text, _, _, hloads, -, -, -, htext, -⟩ := h
  obtain ⟨stored, hstored, -⟩ := id hloads
  have hsome : d.metadata ≠ none := by simp [hstored]
  have hheld : ∀ {e m'}, Held keys (fun _ => True) d e m' → e = d ∧ m' = m := by
    intro e m' hheld
    cases hheld with
    | loaded h => exact ⟨rfl, h.unique hloads⟩
    | created _ hfree => exact absurd (.inl (by simp [hstored])) hfree
  have hnever : ∀ {e m' P}, Held keys (fun _ => True) d e m' → m'.approvalIntent = none → P := fun hheld' hnone => by
    obtain ⟨-, rfl⟩ := hheld hheld'
    rw [htext] at hnone
    cases hnone
  exact ⟨rfl, fun _ _ _ _ _ _ => trivial, fun hnone => absurd hnone hsome, fun _ _ h => (hheld h).1,
    fun _ _ _ _ h hnone _ => hnever h hnone, fun _ _ h hnone => hnever h hnone, fun _ _ _ _ _ h hnone => hnever h hnone⟩

theorem smooth_pollingAgain (certificate : Fingerprint) : Smooth (pollingAgain certificate).allowed certificate :=
  ⟨fun _ _ h => h.1 rfl, fun _ _ _ fingerprint _ h => h.2.2 fingerprint rfl⟩

theorem wp_finish_sent {key : EnrollmentKeyMaterial} {m : PendingMetadata} (hw : Moved b d w) :
    (pollingAgain certificate).wp (finish keys config key m request) (fun _ v => v.sent = b.sent ++ [request])
      (fun _ v => v.sent = b.sent ++ [request]) w := by
  have hsent : ∀ {v u verdict e}, Moved b d v → Moved (v.deliver request verdict) e u → u.sent = b.sent ++ [request] :=
    fun hv hu => by rw [hu.sent, World.deliver, hv.sent]
  refine wp_bind.mpr (wp_submit hw (fun _ _ _ _ => trivial) (fun v hunsent _ => ?_) (fun v _ u hv _ hu => hsent hv hu)
    (fun v _ _ u hv _ _ hu => hsent hv hu) fun v _ completion u hv _ _ hu => ?_)
  · obtain ⟨_, -, -, hsends, -⟩ := hunsent
    exact absurd rfl hsends
  · refine wp_bind.mpr (wp_updateConfig hu (fun _ _ _ _ => trivial) (fun _ _ _ _ => trivial) (fun t _ ht => ?_)
      (fun _ t _ _ ht => hsent hv ht) fun _ t _ _ ht => hsent hv ht)
    exact wp_bind.mpr (wp_promote ht (fun _ _ _ _ => trivial) (fun _ _ _ _ => trivial) (fun _ _ _ _ _ => trivial)
      (fun t _ ht t' ht' => hsent hv (ht.stay ht')) (fun _ t _ _ ht => hsent hv ht) fun _ t _ _ _ ht => hsent hv ht)

/-- What is stored determines what is sent. -/
theorem Prepared.request_eq {m : PendingMetadata} {encodedKey text text' : String} {intent' : RegistrationIntent} {secret : PrivateKey}
    (h : Prepared keys config encodedKey d m (.approval intent) text') (htext : m.approvalIntent = some text)
    (hintent : RegistrationIntent.decode text = .ok intent') (hsecret : d.loadKey m.candidatePrivateKey = some secret) :
    text' = signedIntent keys secret m intent' := by
  cases h with
  | approval htext' hresult hsecret' =>
      obtain rfl := Option.some.inj (htext.symm.trans htext')
      obtain rfl := Except.ok.inj (hintent.symm.trans hresult)
      obtain rfl := Option.some.inj (hsecret.symm.trans hsecret')
      rfl

/-- The stored request is sent again. -/
theorem wp_again_enrollInner (hw : Moved b d w) (h : Asked keys config purpose certificate d request)
    (hbuilt : RegistrationIntent.Built intent) (hpurpose : intent.purpose = purpose)
    (hcanonical : canonicalEnrollmentServerAddr config.serverAddr = .ok config.serverAddr) :
    (pollingAgain certificate).wp (enrollInner keys config intent.encode reuse) (fun _ v => v.sent = b.sent ++ [request])
      (fun _ v => v.sent = b.sent ++ [request]) w := by
  have hparse := parseCredential_encode hbuilt
  refine wp_enrollInner h.passes hw (fun _ _ _ _ _ _ => trivial) ?_ fun error e v _ _ hno hv => ?_
  · intro credential e m key certificate' request' text v hparse' he hloads hmatch hkey hprepared hrequest hserver hv
    obtain rfl := he
    obtain rfl := Except.ok.inj (hparse.symm.trans hparse')
    obtain ⟨m', stored, intent', secret, hloads', -, -, -, htext, hintent, hsecret, hrequest'⟩ := h
    obtain rfl := hloads.unique hloads'
    rw [hprepared.request_eq htext hintent hsecret] at hrequest
    obtain rfl := Except.ok.inj (hrequest.symm.trans hrequest')
    exact wp_finish_sent hv
  · refine absurd (smooth_pollingAgain certificate) (hno _ certificate hparse ?_)
    obtain ⟨m, text, intent', secret, hloads, haddr, hpurpose', hfingerprint, htext, hintent, hsecret, -⟩ := h
    have hserverAddr : m.serverAddr = config.serverAddr := Except.ok.inj (haddr.symm.trans hcanonical)
    refine ⟨.inl ⟨m, certificate, hloads, hserverAddr, hfingerprint⟩, fun server hserver => ?_, ?_⟩
    · cases hserver with
      | pending _ m' fingerprint hloads' _ hfingerprint' =>
          obtain rfl := hloads.unique hloads'
          exact decide_eq_true (Option.some.inj (hfingerprint'.symm.trans hfingerprint))
      | first _ trust hnone =>
          obtain ⟨stored, hstored, -⟩ := hloads
          rw [hnone] at hstored
          cases hstored
    · refine ⟨_, forVerifiedServer_eq_ok.mpr ⟨_, hcanonical, rfl⟩, .inl ⟨m, hloads, ⟨?_, hserverAddr, hfingerprint⟩, ?_⟩⟩
      · exact hpurpose'.trans hpurpose.symm
      · exact fun _ _ => .inl ⟨text, intent', htext, hintent⟩

/-- In another spelling of the address nothing is sent. -/
theorem wp_silent_enrollInner (hw : Moved b d w) (h : Asked keys config purpose certificate d request)
    (hbuilt : RegistrationIntent.Built intent)
    (hcanonical : canonicalEnrollmentServerAddr config.serverAddr ≠ .ok config.serverAddr) :
    (pollingAgain certificate).wp (enrollInner keys config intent.encode reuse) (fun _ v => v.sent = b.sent)
      (fun _ v => v.sent = b.sent) w := by
  refine wp_enrollInner h.passes hw (fun _ _ _ _ _ _ => trivial) ?_ fun error e v _ _ _ hv => hv.sent
  intro credential e m key certificate' request' text v hparse _ hloads hmatch hkey _ _ hserver hv
  obtain rfl := Except.ok.inj ((parseCredential_encode hbuilt).symm.trans hparse)
  obtain ⟨m', _, _, _, hloads', haddr, -⟩ := h
  obtain ⟨server, hserver, -⟩ := hserver
  cases hserver with
  | pending _ m'' fingerprint hloads'' haddr' =>
      obtain rfl := hloads'.unique hloads''
      exact absurd (haddr' ▸ haddr) hcanonical
  | first _ trust hnone =>
      obtain ⟨stored, hstored, -⟩ := hloads'
      rw [hnone] at hstored
      cases hstored

end Again

section Calls

variable {call : Call}

/-- Under a stored request both calls go the same way. -/
theorem wp_call {Q : EnrollmentCompletion → World → Prop} {E : EnrollmentError → World → Prop}
    (h : Asked keys config call.purpose certificate w.disk request)
    (hgo : ∀ intent reuse v, intentOf config call.purpose = .ok intent → Moved w w.disk v →
      (pollingAgain certificate).wp (enrollInner keys config intent.encode reuse) Q E v)
    (herror : ∀ error v, intentOf config call.purpose = .error error → Moved w w.disk v → E error v) :
    (pollingAgain certificate).wp (call.program keys config) Q E w := by
  cases call with
  | registration purpose =>
      exact wp_ofExcept (fun intent hintent => hgo intent true w hintent (.refl w)) fun error herr t ht => herror error t herr ht
  | rotation =>
      have hsome : w.disk.metadata ≠ none := by
        obtain ⟨m, _, _, _, ⟨stored, hstored, -⟩, -⟩ := h
        simp [hstored]
      refine wp_bind.mpr (wp_sessionConfig (.refl w) (fun _ _ _ _ => trivial) (fun config' v hconfig hv => ?_)
        fun error v _ hnone _ _ => absurd hnone hsome)
      obtain rfl : config' = config := hconfig.resolve_right fun hnone => hsome hnone.1
      exact wp_ofExcept (fun intent hintent => hgo intent false v hintent hv) fun error herr t ht => herror error t herr (hv.stay ht)

theorem wp_again (h : Asked keys config call.purpose certificate w.disk request)
    (hcanonical : canonicalEnrollmentServerAddr config.serverAddr = .ok config.serverAddr)
    (hintent : ∃ intent, intentOf config call.purpose = .ok intent) :
    (pollingAgain certificate).wp (call.program keys config) (fun _ v => v.sent = w.sent ++ [request])
      (fun _ v => v.sent = w.sent ++ [request]) w := by
  obtain ⟨intent, hintent⟩ := hintent
  refine wp_call h (fun intent reuse v hintent hv => ?_) fun error v herror _ => by cases hintent.symm.trans herror
  obtain ⟨hbuilt, hpurpose⟩ := intentOf_built hintent
  exact wp_again_enrollInner hv h hbuilt hpurpose hcanonical

theorem wp_silent (h : Asked keys config call.purpose certificate w.disk request)
    (hno : ¬(canonicalEnrollmentServerAddr config.serverAddr = .ok config.serverAddr ∧
      ∃ intent, intentOf config call.purpose = .ok intent)) :
    (pollingAgain certificate).wp (call.program keys config) (fun _ v => v.sent = w.sent) (fun _ v => v.sent = w.sent) w := by
  refine wp_call h (fun intent reuse v hintent hv => ?_) fun error v _ hv => hv.sent
  exact wp_silent_enrollInner hv h (intentOf_built hintent).1 fun hcanonical => hno ⟨hcanonical, intent, hintent⟩

/-- How every operation can come out. -/
def Op.outcome (certificate : Fingerprint) (bytes : Vector UInt8 16) (verdict : Verdict) : Op → Choice
  | .persistPrivateKey _ => .generated (Vector.replicate 32 0)
  | .randomRequestId => .random bytes
  | .certificateAuthorityExists => .found true
  | .authenticate _ => .authenticated none
  | .connect _ _ _ => .certificate certificate
  | .send _ => .answered verdict true
  | _ => .done

theorem live_of_outcome {allowed : Op → Choice → World → Prop} {guard : Op → World → Prop} (certificate : Fingerprint)
    (bytes : Vector UInt8 16) (verdict : Verdict) (h : ∀ op w, allowed op (op.outcome certificate bytes verdict) w) :
    (contract allowed guard).Live := by
  intro op w
  have hperform : ∃ answer t, perform op (op.outcome certificate bytes verdict) w = some (answer, t) := by
    cases op with
    | file op =>
        simp only [Op.outcome, perform_file]
        split <;> exact ⟨_, _, rfl⟩
    | persistPrivateKey id =>
        simp only [Op.outcome, perform_persistPrivateKey]
        split <;> exact ⟨_, _, rfl⟩
    | _ => exact ⟨_, _, rfl⟩
  obtain ⟨answer, t, hperform⟩ := hperform
  exact ⟨_, answer, t, hperform, h op w⟩

/-- The server answers whatever it is asked. -/
theorem live_pollingAgain (certificate : Fingerprint) : (pollingAgain certificate).Live := by
  refine live_of_outcome certificate (Vector.replicate 16 0) (.reject .unavailable) fun op w => ?_
  cases op with
  | connect => exact ⟨by simp [Op.outcome], by simp [Op.outcome], fun _ heq => (Choice.certificate.inj heq).symm⟩
  | _ => exact ⟨by simp [Op.outcome], by simp [Op.outcome], fun _ heq => by simp [Op.outcome] at heq⟩

/-- The next call sends the request of the first one again. -/
def Polled (keys : Keys) (config : ClientSection) (call : Call) (certificate : Fingerprint) (w w₁ : World) : Prop :=
  ∃ request, w₁.sent = w.sent ++ [request] ∧
    (∃ result v, (pollingAgain certificate).Returns w₁ (call.program keys config) result v) ∧
    ∀ result v, (pollingAgain certificate).Returns w₁ (call.program keys config) result v → v.sent = w₁.sent ++ [request]

theorem ends_const {P : World → Prop} {result : Except EnrollmentError EnrollmentCompletion} {v : World}
    (h : Ends (fun _ => P) (fun _ => P) v result) : P v := by
  cases result <;> exact h

theorem not_polled_of_silent {w₁ : World} (h : Asked keys config call.purpose certificate w₁.disk request)
    (hno : ¬(canonicalEnrollmentServerAddr config.serverAddr = .ok config.serverAddr ∧
      ∃ intent, intentOf config call.purpose = .ok intent)) : ¬Polled keys config call certificate w w₁ := by
  rintro ⟨request', -, ⟨result, v, hreturns⟩, hall⟩
  have hsilent := ends_const (wp_returns (wp_silent h hno) hreturns)
  have hsent := hall result v hreturns
  rw [hsilent, List.self_eq_append_right] at hsent
  cases hsent

/-- A pending approval is polled by the next call if and only if the address is configured as it is stored, and the
configuration's own name makes an intent. -/
theorem pending_approval_polled_iff {w₁ : World} {code : EnrollmentErrorCode}
    (h : (polling certificate).Returns w (call.program keys config) (.error (.rejected code)) w₁) :
    Polled keys config call certificate w w₁ ↔
      canonicalEnrollmentServerAddr config.serverAddr = .ok config.serverAddr ∧ ∃ intent, intentOf config call.purpose = .ok intent := by
  obtain ⟨request, hsent, hasked⟩ := wp_returns (wp_first call) h code rfl
  constructor
  · intro hpolled
    by_contra hno
    exact not_polled_of_silent hasked hno hpolled
  · rintro ⟨hcanonical, hintent⟩
    refine ⟨request, hsent, (live_pollingAgain certificate).returns _ w₁, fun result v hreturns => ?_⟩
    exact ends_const (wp_returns (wp_again hasked hcanonical hintent) hreturns)

def sampleKeys : Keys where
  publicKey _ := "ed25519:key"
  sign _ _ := Vector.replicate 64 0
  size_le _ := by decide

/-- The configuration of a new client. -/
def sampleConfig (serverAddr : String) : ClientSection where
  name := "node"
  profile := none
  identityMode := none
  serverAddr
  serverName := "example.com"
  trustMode := none
  serverCertificateFingerprint := none

def sampleWorld (serverAddr : String) : World where
  disk := ⟨none, fun _ => none, [], false, sampleConfig serverAddr⟩
  server := ⟨none, [], []⟩
  sent := []

/-- The first call of a new client, which is left pending. -/
def sampleChoices : List Choice :=
  [.done, .found false, .done, .certificate (Vector.replicate 32 7), .done, .done, .done, .random (Vector.replicate 16 1), .done,
    .done, .generated (Vector.replicate 32 5), .done, .done, .done, .done, .done, .done, .done, .done, .done, .done,
    .answered (.pend .pendingApproval) true]

theorem sample_allowed : ∀ choice ∈ sampleChoices, ∀ op s, (polling (Vector.replicate 32 7)).allowed op choice s := by
  intro choice hchoice op s fingerprint heq
  have hall : ∀ choice ∈ sampleChoices, ∀ fingerprint, choice = .certificate fingerprint → fingerprint = Vector.replicate 32 7 := by
    simp [sampleChoices]
  exact hall choice hchoice fingerprint heq

/-- A server in lower case is polled. -/
theorem pending_approval_polled_lowercase : ∃ w₁,
    (polling (Vector.replicate 32 7)).Returns (sampleWorld "example.com:443")
      ((Call.registration .enroll).program sampleKeys (sampleConfig "example.com:443")) (.error (.rejected .pendingApproval)) w₁ ∧
    Polled sampleKeys (sampleConfig "example.com:443") (.registration .enroll) (Vector.replicate 32 7)
      (sampleWorld "example.com:443") w₁ := by
  obtain ⟨result, w₁, hreturns, hresult⟩ := returns_of_run_any (P := fun r => r.1 = .error (.rejected .pendingApproval)) sample_allowed
    (show (run (polling (Vector.replicate 32 7)).perform
      ((Call.registration .enroll).program sampleKeys (sampleConfig "example.com:443")) sampleChoices
      (sampleWorld "example.com:443")).any _ = true by decide +kernel)
  obtain rfl : result = .error (.rejected .pendingApproval) := hresult
  have hcanonical : canonicalEnrollmentServerAddr "example.com:443" = .ok "example.com:443" := by decide +kernel
  have hintent : (intentOf (sampleConfig "example.com:443") .enroll).toBool = true := by decide +kernel
  refine ⟨w₁, hreturns, (pending_approval_polled_iff hreturns).mpr ⟨hcanonical, ?_⟩⟩
  cases hok : intentOf (sampleConfig "example.com:443") .enroll with
  | ok intent => exact ⟨intent, hok⟩
  | error => rw [hok] at hintent; cases hintent

/-- A server in upper case is accepted by the configuration, but not polled. -/
theorem uppercase_host_not_polled : Managed.validateHostAddress "client.server_addr" "Example.com:443" = .ok () ∧ ∃ w₁,
    (polling (Vector.replicate 32 7)).Returns (sampleWorld "Example.com:443")
      ((Call.registration .enroll).program sampleKeys (sampleConfig "Example.com:443")) (.error (.rejected .pendingApproval)) w₁ ∧
    ¬Polled sampleKeys (sampleConfig "Example.com:443") (.registration .enroll) (Vector.replicate 32 7)
      (sampleWorld "Example.com:443") w₁ := by
  refine ⟨by decide +kernel, ?_⟩
  obtain ⟨result, w₁, hreturns, hresult⟩ := returns_of_run_any (P := fun r => r.1 = .error (.rejected .pendingApproval)) sample_allowed
    (show (run (polling (Vector.replicate 32 7)).perform
      ((Call.registration .enroll).program sampleKeys (sampleConfig "Example.com:443")) sampleChoices
      (sampleWorld "Example.com:443")).any _ = true by decide +kernel)
  obtain rfl : result = .error (.rejected .pendingApproval) := hresult
  have hcanonical : canonicalEnrollmentServerAddr "Example.com:443" ≠ .ok "Example.com:443" := by decide +kernel
  obtain ⟨request, -, hasked⟩ := wp_returns (wp_first (.registration .enroll)) hreturns .pendingApproval rfl
  exact ⟨w₁, hreturns, not_polled_of_silent hasked fun h => hcanonical h.1⟩

end Calls

end Rustgo.ClientEnrollment
