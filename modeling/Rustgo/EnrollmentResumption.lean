import Rustgo.EnrollmentCrashes

namespace Rustgo.ClientEnrollment

open Durable Contract
open Enrollment
open Postcard.Format (utf8)
open Protocol
open Runs

variable {keys : Keys} {made : EnrollmentKeyMaterial → Prop} {d : Disk} {m : PendingMetadata} {b v w : World}
  {certificate : Fingerprint} {bytes : Vector UInt8 16} {config : ClientSection} {credential : Credential} {encodedKey : String}
  {reuse : Bool} {key : EnrollmentKeyMaterial} {request : EnrollmentRequest}

/-- Nothing fails, the server shows this certificate and accepts, and these bytes are drawn at random. -/
structure Succeeds (certificate : Fingerprint) (bytes : Vector UInt8 16) (op : Op) (choice : Choice) (w : World) : Prop where
  steady : choice ≠ .fails
  sent : choice ≠ .unsent
  certificate : ∀ fingerprint, choice = .certificate fingerprint → fingerprint = certificate
  random : ∀ drawn, choice = .random drawn → drawn = bytes
  accepted : ∀ verdict delivered, choice = .answered verdict delivered → delivered = true ∧ ∃ completion, verdict = .accept completion
  profile : ∀ config profile, op = .authenticate config → choice = .authenticated (some profile) →
    ∃ intent, intentOf { config with profile := some profile } .reEnroll = .ok intent

def completing (certificate : Fingerprint) (bytes : Vector UInt8 16) : Contract Op Op.Answer Choice World :=
  contract (Succeeds certificate bytes) fun _ _ => True

theorem live_completing (certificate : Fingerprint) (bytes : Vector UInt8 16) : (completing certificate bytes).Live := by
  refine live_of_outcome certificate bytes (.accept ⟨"", 0⟩) fun op w => ?_
  cases op <;> constructor <;> simp [Op.outcome]

theorem smooth_completing (certificate : Fingerprint) (bytes : Vector UInt8 16) : Smooth (Succeeds certificate bytes) certificate :=
  ⟨fun _ _ h => h.steady rfl, fun _ _ _ fingerprint _ h => h.certificate fingerprint rfl⟩

/-- These bytes make a new request. -/
def Disk.Unused (d : Disk) (bytes : Vector UInt8 16) : Prop :=
  requestIdOf bytes ∉ d.metadataTemps ∧ d.keyFiles (.candidate (requestIdOf bytes)) = none

/-- The attempt may begin a new request. -/
structure Starts (config : ClientSection) (certificate : Fingerprint) (bytes : Vector UInt8 16) (d : Disk) (credential : Credential)
    (key : EnrollmentKeyMaterial) (reuse : Bool) : Prop where
  unused : d.Unused bytes
  free : ¬(reuse = false ∧ key.purpose = .enroll ∧ (d.keyFiles .final).isSome = true)
  trusted : ∀ intent, credential = .approval intent → config.trustMode = some .pinned → configuredFingerprint config = some certificate

/-- The attempt is about this key, and about the pending request if there is one. -/
structure Ready (keys : Keys) (config : ClientSection) (certificate : Fingerprint) (bytes : Vector UInt8 16) (d : Disk)
    (credential : Credential) (key : EnrollmentKeyMaterial) (reuse : Bool) : Prop where
  keyed : keyOf (addressOf config credential) certificate credential = .ok key
  legacy : ∀ legacyKey, credential = .legacy legacyKey → legacyKey.certificateFingerprint = certificate
  canonical : ∀ intent, credential = .approval intent → canonicalEnrollmentServerAddr config.serverAddr = .ok config.serverAddr
  pending : ∀ m, d.Loads keys m → Matches m key
  first : d.metadata = none → Starts config certificate bytes d credential key (credential.isApproval && reuse)

theorem serverName_of_canonical {address canonical : String} (h : canonicalEnrollmentServerAddr address = .ok canonical) :
    ∃ name, serverName address = .ok name := by
  unfold canonicalEnrollmentServerAddr at h
  split at h
  · next text heq =>
    rw [Checks.bind_eq_ok] at h
    obtain ⟨parts, hparts, -⟩ := h
    rw [serverName_of_bracket heq, Checks.okOr_eq_ok.mp hparts]
    exact ⟨_, rfl⟩
  · next text hne =>
    rw [Checks.bind_eq_ok] at h
    obtain ⟨parts, hparts, -⟩ := h
    rw [serverName_of_not_bracket hne, Checks.okOr_eq_ok.mp hparts]
    exact ⟨_, rfl⟩

theorem serverName_of_decode (h : EnrollmentKeyMaterial.decode encodedKey = .ok key) : ∃ name, serverName key.serverAddr = .ok name := by
  simp only [EnrollmentKeyMaterial.decode, EnrollmentKeyMaterial.ofPayload, Checks.bind_eq_ok, Prod.exists] at h
  obtain ⟨_, -, _, -, _, _, -, _, -, _, -, _, -, _, -, _, -, _, -, _, -, _, -, _, -, _, -, hnew⟩ := h
  exact serverName_of_canonical (EnrollmentKeyMaterial.new_self hnew).1

/-- Stored metadata can be bound to the intent of the attempt. -/
theorem Proper.bindable {intent result : RegistrationIntent} (h : Proper made m) (hnew : m.requestId ∉ d.metadataTemps)
    (hresult : RegistrationIntent.decode intent.encode = .ok result) : Bindable config d m true intent := by
  cases htext : m.approvalIntent with
  | some text =>
      obtain ⟨stored, hstored⟩ := h.intent text htext
      exact .inl ⟨text, stored, htext, hstored⟩
  | none =>
      refine .inr ⟨htext, hnew, intent, result, if_neg fun hlegacy => ?_, hresult⟩
      simp [PendingMetadata.requiresLegacyApprovalIntent, h.version] at hlegacy

theorem Matches.serverAddr (h : Matches m key) (hcanonical : canonicalEnrollmentServerAddr config.serverAddr = .ok config.serverAddr)
    {purpose : EnrollmentPurpose} (hkey : forVerifiedServer purpose config.serverAddr certificate = .ok key) :
    m.serverAddr = config.serverAddr ∧ m.fingerprint = some certificate := by
  obtain ⟨canonical, hcanonical', rfl⟩ := forVerifiedServer_eq_ok.mp hkey
  obtain rfl := Except.ok.inj (hcanonical.symm.trans hcanonical')
  exact h.2

theorem Ready.findable (h : Ready keys config certificate bytes d credential key reuse) (hparse : parseCredential encodedKey = .ok credential)
    (hloads : d.metadata.isSome = true → ∃ m, d.Loads keys m) : Findable keys config d credential := by
  cases credential with
  | legacy legacyKey => exact serverName_of_decode (legacy_of_parse hparse)
  | approval intent =>
      cases hmetadata : d.metadata with
      | some stored =>
          obtain ⟨m, hm⟩ := hloads (by rw [hmetadata, Option.isSome_some])
          obtain ⟨haddr, hfingerprint⟩ := (h.pending m hm).serverAddr (h.canonical intent rfl) h.keyed
          exact .inl ⟨m, certificate, hm, haddr, hfingerprint⟩
      | none => exact .inr ⟨hmetadata, fun hpinned => by rw [(h.first hmetadata).trusted intent rfl hpinned, Option.isSome_some]⟩

theorem Ready.trusted (h : Ready keys config certificate bytes d credential key reuse) (server : Endpoint)
    (hserver : EndpointOf keys config d credential server) : server.trust.accepts certificate = true := by
  cases hserver with
  | pending intent m fingerprint hm _ hfingerprint =>
      obtain ⟨-, hsame⟩ := (h.pending m hm).serverAddr (h.canonical intent rfl) h.keyed
      exact decide_eq_true (Option.some.inj (hfingerprint.symm.trans hsame))
  | first intent trust hnone htrust =>
      cases htrust with
      | pinned fingerprint hmode hconfigured =>
          exact decide_eq_true (Option.some.inj (hconfigured.symm.trans ((h.first hnone).trusted intent rfl hmode)))
      | caFile => rfl
      | initialEnrollment => rfl
  | legacy legacyKey => exact decide_eq_true (h.legacy legacyKey rfl)

/-- Nothing stands in the way of an attempt that is ready. -/
theorem Ready.admissible (h : Ready keys config certificate bytes w.disk credential key reuse) (hparse : parseCredential encodedKey = .ok credential)
    (hidle : Idle keys made w) : Admissible (Succeeds certificate bytes) w keys config certificate reuse w.disk credential := by
  have hresult : ∀ intent, credential = .approval intent → ∃ result, RegistrationIntent.decode intent.encode = .ok result :=
    fun intent hintent => decode_encode_of_decode (approval_of_parse (hintent ▸ hparse))
  refine ⟨h.findable hparse fun hsome => ?_, h.trusted, key, h.keyed, ?_⟩
  · obtain ⟨m, hm, -⟩ := hidle.1.loads hsome
    exact ⟨m, hm⟩
  · cases hmetadata : w.disk.metadata with
    | some stored =>
        obtain ⟨m, hm, hproper⟩ := hidle.1.loads (by rw [hmetadata, Option.isSome_some])
        refine .inl ⟨m, hm, h.pending m hm, fun intent hintent => ?_⟩
        obtain ⟨result, hresult⟩ := hresult intent hintent
        exact hproper.bindable (hm.new_of_not_fragile hidle.2) hresult
    | none =>
        have hfirst := h.first hmetadata
        refine .inr ⟨rfl, ?_, fun drawn hpossible => ?_, hresult⟩
        · rintro (hsome | hoccupied)
          · rw [hmetadata] at hsome
            cases hsome
          · exact hfirst.free hoccupied
        · obtain ⟨u, -, hallowed⟩ := hpossible
          rw [hallowed.random drawn rfl]
          exact hfirst.unused

theorem Held.configTemp {e : Disk} (h : Held keys made d e m) : e.configTemp = d.configTemp := by
  cases h with
  | loaded => rfl
  | created _ _ _ _ hcreated => exact hcreated.configTemp

/-- On the way to the request the temporary file of the configuration stays as it is. -/
theorem passes_configTemp {allowed : Op → Choice → World → Prop} {E : EnrollmentError → World → Prop} {there : Bool} (hconfig : d.configTemp = there)
    (htorn : ∀ error e v, e.configTemp = there → Faulty allowed b e → Moved b e v → E error v) :
    Passes allowed (fun _ _ => True) keys made b d (fun e => e.configTemp = there) E where
  start := hconfig
  quiet _ _ _ _ _ _ := trivial
  scratch _ e he := he.configTemp.trans hconfig
  held e m he := he.configTemp.trans hconfig
  stored e m text result he _ _ := he.configTemp.trans hconfig
  temp _ _ _ _ _ _ _ _ := trivial
  torn error e m v _ he _ := htorn error (e.withTemp m.requestId) v (he.configTemp.trans hconfig)

theorem wp_completes_finish (hconfig : d.configTemp = false) (hm : d.Loads keys m) (hw : Moved b d w) :
    (completing certificate bytes).wp (finish keys config key m request) (fun _ _ => True) (fun _ _ => False) w := by
  have hsteady : ∀ {b e}, ¬Faulty (Succeeds certificate bytes) b e := (smooth_completing certificate bytes).not_faulty
  refine wp_bind.mpr (wp_submit hw (fun _ _ _ _ => trivial) (fun v hunsent _ => ?_) (fun v verdict u _ hallowed _ => ?_)
    (fun v verdict code u _ hallowed hreply _ => ?_) fun v verdict completion u _ _ _ hu => ?_)
  · obtain ⟨_, -, hallowed⟩ := hunsent
    exact hallowed.sent rfl
  · cases (hallowed.accepted verdict false rfl).1
  · obtain ⟨-, completion, rfl⟩ := hallowed.accepted verdict true rfl
    cases hreply
  · refine wp_bind.mpr (wp_updateConfig hu (fun _ _ _ _ => trivial) (fun _ _ _ _ => trivial) (fun t _ ht => ?_)
      (fun _ _ _ hfaulty _ => hsteady (hfaulty hconfig)) fun _ _ _ hfaulty _ => hsteady hfaulty)
    have hvalid : Disk.Validates keys { d with config := updatedConfig config d.config key completion.clientId, configTemp := false } m := by
      obtain ⟨-, -, -, hvalid⟩ := hm
      exact hvalid
    exact wp_bind.mpr (wp_promote ht (fun _ _ _ _ => trivial) (fun _ _ _ _ => trivial) (fun _ _ _ _ _ => trivial) (fun _ _ _ _ _ => trivial)
      (fun _ _ _ hfaulty _ => hsteady (hfaulty hvalid hm.metadata)) fun _ _ _ _ hfaulty _ => hsteady (hfaulty hm.metadata))

theorem Idle.wp_completes_enrollInner (h : Idle keys made w) (hparse : parseCredential encodedKey = .ok credential)
    (hready : Ready keys config certificate bytes w.disk credential key reuse) (hv : Moved w w.disk v) :
    (completing certificate bytes).wp (enrollInner keys config encodedKey reuse) (fun _ _ => True) (fun _ _ => False) v := by
  have hpasses : Passes (Succeeds certificate bytes) (fun _ _ => True) keys (fun _ => True) w w.disk (fun e => e.configTemp = false)
      (fun _ _ => False) :=
    passes_configTemp (configTemp_of_not_fragile h.2) fun _ _ _ _ hfaulty _ => (smooth_completing certificate bytes).not_faulty hfaulty
  refine ClientEnrollment.wp_enrollInner hpasses hv (fun _ _ _ _ _ _ => trivial) ?_ ?_
  · exact fun _ _ _ _ _ _ _ _ _ hconfig hloads _ _ _ _ _ hu => wp_completes_finish hconfig hloads hu
  · exact fun _ _ _ _ _ hno _ => hno credential certificate hparse (hready.admissible hparse h) (smooth_completing certificate bytes)

section Attempts

variable {attempt : Attempt}

namespace Attempt

/-- The address is configured as it is stored, and a call can make its intent of the configuration. -/
def Plain : Attempt → Prop
  | enroll config encodedKey => (∃ intent, parseCredential encodedKey = .ok (.approval intent)) →
      canonicalEnrollmentServerAddr config.serverAddr = .ok config.serverAddr
  | call config request => canonicalEnrollmentServerAddr config.serverAddr = .ok config.serverAddr ∧
      ∃ intent, intentOf config request.purpose = .ok intent

/-- The attempt trusts the certificate, and no key is in its way. -/
inductive Begins (certificate : Fingerprint) (d : Disk) : Attempt → Prop
  | legacy {config : ClientSection} {encodedKey : String} {key : EnrollmentKeyMaterial}
      (hparse : parseCredential encodedKey = .ok (.legacy key))
      (hfree : ¬(key.purpose = .enroll ∧ (d.keyFiles .final).isSome = true)) : Begins certificate d (.enroll config encodedKey)
  | approval {config : ClientSection} {encodedKey : String} {intent : RegistrationIntent}
      (hparse : parseCredential encodedKey = .ok (.approval intent))
      (htrusted : config.trustMode = some .pinned → configuredFingerprint config = some certificate) :
      Begins certificate d (.enroll config encodedKey)
  | call {config : ClientSection} {request : Call} (htrusted : config.trustMode = some .pinned → configuredFingerprint config = some certificate) :
      Begins certificate d (.call config request)

end Attempt

/-- A call whose intent is made of the configuration, perhaps with another profile. -/
theorem Idle.wp_completes_call {config' : ClientSection} {call : Call} {purpose : EnrollmentPurpose} (h : Idle keys made w)
    (hmakes : Attempt.Makes certificate (.call config call) key)
    (hconfig : ∃ profile, config' = { config with profile }) (hpurpose : call.purpose = purpose) (hcanonical : canonicalEnrollmentServerAddr config.serverAddr = .ok config.serverAddr)
    (hintent : ∃ intent, intentOf config' purpose = .ok intent)
    (hpending : ∀ m, w.disk.Loads keys m → Matches m key)
    (hfirst : w.disk.metadata = none → Attempt.Begins certificate w.disk (.call config call) ∧ w.disk.Unused bytes)
    (hreuse : reuse = true ∨ purpose = .reEnroll) (hv : Moved w w.disk v) :
    (completing certificate bytes).wp (do
      let intent ← Prog.ofExcept (intentOf config' purpose)
      enrollInner keys config' intent.encode reuse) (fun _ _ => True) (fun _ _ => False) v := by
  obtain ⟨profile, rfl⟩ := hconfig
  obtain ⟨_, hmade⟩ := hintent
  refine wp_ofExcept (fun intent hintent => ?_) fun _ hfailed => by cases hmade.symm.trans hfailed
  obtain ⟨hbuilt, rfl⟩ := intentOf_built hintent
  cases hmakes with
  | call hkey =>
      rw [hpurpose] at hkey
      have hpurpose' : key.purpose = intent.purpose := by
        obtain ⟨canonical, -, rfl⟩ := forVerifiedServer_eq_ok.mp hkey
        rfl
      have hready : Ready keys { config with profile } certificate bytes w.disk (.approval intent) key reuse := by
        refine ⟨hkey, fun _ hlegacy => (by cases hlegacy), fun _ _ => hcanonical, hpending, fun hnone => ?_⟩
        obtain ⟨hbegins, hunused⟩ := hfirst hnone
        cases hbegins with
        | call htrusted =>
            refine ⟨hunused, ?_, fun _ _ hpinned => htrusted hpinned⟩
            rintro ⟨hno, henroll, -⟩
            rcases hreuse with rfl | hreEnroll
            · cases hno
            · rw [hpurpose', hreEnroll] at henroll
              cases henroll
      exact h.wp_completes_enrollInner (parseCredential_encode hbuilt) hready hv

theorem Idle.wp_completes_rotation (h : Idle keys made w) (hplain : (Attempt.call config .rotation).Plain)
    (hmakes : Attempt.Makes certificate (.call config .rotation) key) (hpending : ∀ m, w.disk.Loads keys m → Matches m key)
    (hfirst : w.disk.metadata = none → Attempt.Begins certificate w.disk (.call config .rotation) ∧ w.disk.Unused bytes) :
    (completing certificate bytes).wp (requestKeyRotation keys config) (fun _ _ => True) (fun _ _ => False) w := by
  obtain ⟨hcanonical, hintent⟩ := hplain
  refine wp_bind.mpr (wp_sessionConfig (.refl w) (fun _ _ _ _ => trivial) (fun config' v hconfig hv => ?_)
    fun _ _ _ _ hfaulty _ => (smooth_completing certificate bytes).not_faulty hfaulty)
  have hgo : (∃ profile, config' = { config with profile }) → (∃ intent, intentOf config' .reEnroll = .ok intent) →
      (completing certificate bytes).wp (do
        let intent ← Prog.ofExcept (intentOf config' .reEnroll)
        enrollInner keys config' intent.encode false) (fun _ _ => True) (fun _ _ => False) v :=
    fun hconfig hintent => h.wp_completes_call hmakes hconfig rfl hcanonical hintent hpending hfirst (.inr rfl) hv
  rcases hconfig with rfl | ⟨-, profile, hpossible, hconfig⟩
  · exact hgo ⟨config'.profile, rfl⟩ hintent
  · obtain ⟨u, -, hallowed⟩ := hpossible
    exact hgo ⟨some profile, hconfig⟩ (hconfig ▸ hallowed.profile config profile rfl rfl)

/-- An attempt that is about the pending request, or that may begin one, completes. -/
theorem Idle.wp_completes (h : Idle keys made w) (hplain : attempt.Plain) (hmakes : attempt.Makes certificate key)
    (hpending : ∀ m, w.disk.Loads keys m → Matches m key)
    (hfirst : w.disk.metadata = none → attempt.Begins certificate w.disk ∧ w.disk.Unused bytes) :
    (completing certificate bytes).wp (attempt.program keys) (fun _ _ => True) (fun _ _ => False) w := by
  cases attempt with
  | enroll config encodedKey =>
      cases hmakes with
      | legacy hparse hcertificate =>
          have hready : Ready keys config certificate bytes w.disk (.legacy key) key true := by
            refine ⟨rfl, fun _ hlegacy => ?_, fun _ happroval => (by cases happroval), hpending, fun hnone => ?_⟩
            · exact Credential.legacy.inj hlegacy ▸ hcertificate
            · obtain ⟨hbegins, hunused⟩ := hfirst hnone
              cases hbegins with
              | legacy hparse' hfree =>
                  obtain rfl := Credential.legacy.inj (Except.ok.inj (hparse.symm.trans hparse'))
                  exact ⟨hunused, fun h => hfree h.2, fun _ happroval => (by cases happroval)⟩
              | approval hparse' => cases hparse.symm.trans hparse'
          exact h.wp_completes_enrollInner hparse hready (.refl w)
      | approval hparse hkey =>
          rename_i intent
          have hready : Ready keys config certificate bytes w.disk (.approval intent) key true := by
            refine ⟨hkey, fun _ hlegacy => (by cases hlegacy), fun _ _ => hplain ⟨_, hparse⟩, hpending, fun hnone => ?_⟩
            obtain ⟨hbegins, hunused⟩ := hfirst hnone
            cases hbegins with
            | legacy hparse' => cases hparse.symm.trans hparse'
            | approval _ htrusted => exact ⟨hunused, fun h => (by cases h.1), fun _ _ => htrusted⟩
          exact h.wp_completes_enrollInner hparse hready (.refl w)
  | call config call =>
      obtain ⟨hcanonical, hintent⟩ := hplain
      cases call with
      | registration purpose =>
          exact h.wp_completes_call hmakes ⟨config.profile, rfl⟩ rfl hcanonical hintent hpending hfirst (.inl rfl) (.refl w)
      | rotation =>
          exact h.wp_completes_rotation ⟨hcanonical, hintent⟩ hmakes hpending hfirst

/-- When nothing fails and the server accepts, the attempt ends well, and it does end. -/
def Completes (keys : Keys) (certificate : Fingerprint) (bytes : Vector UInt8 16) (attempt : Attempt) (w : World) : Prop :=
  (∃ result v, (completing certificate bytes).Returns w (attempt.program keys) result v) ∧
    ∀ result v, (completing certificate bytes).Returns w (attempt.program keys) result v → ∃ completion, result = .ok completion

theorem completes_of_wp (h : (completing certificate bytes).wp (attempt.program keys) (fun _ _ => True) (fun _ _ => False) w) :
    Completes keys certificate bytes attempt w := by
  refine ⟨(live_completing certificate bytes).returns _ w, fun result v hreturns => ?_⟩
  have hends := wp_returns h hreturns
  cases result with
  | ok completion => exact ⟨completion, rfl⟩
  | error => exact hends.elim

/-- The pending request is what the attempt would ask for. -/
def Belongs (keys : Keys) (attempt : Attempt) (certificate : Fingerprint) (d : Disk) : Prop :=
  ∃ m key, d.Loads keys m ∧ attempt.Makes certificate key ∧ Matches m key

/-- Without a pending request an attempt can begin one, and with a pending request one of the earlier attempts is its own,
and every such attempt can complete it. -/
structure Resumable (keys : Keys) (attempts : Attempt → Prop) (shown : Fingerprint → Prop) (w : World) : Prop where
  begins : w.disk.metadata = none → ∀ attempt certificate key bytes, attempt.Plain → attempt.Makes certificate key →
    attempt.Begins certificate w.disk → w.disk.Unused bytes → Completes keys certificate bytes attempt w
  belongs : w.disk.metadata ≠ none → ∃ attempt certificate, attempts attempt ∧ shown certificate ∧ Belongs keys attempt certificate w.disk
  completes : ∀ attempt certificate bytes, attempt.Plain → Belongs keys attempt certificate w.disk →
    Completes keys certificate bytes attempt w

theorem Idle.resumable {attempts : Attempt → Prop} {shown : Fingerprint → Prop} (h : Idle keys (MadeBy attempts shown) w) :
    Resumable keys attempts shown w where
  begins hnone attempt certificate key bytes hplain hmakes hbegins hunused := by
    refine completes_of_wp (h.wp_completes hplain hmakes (fun m hm => ?_) fun _ => ⟨hbegins, hunused⟩)
    obtain ⟨stored, hstored, -⟩ := hm
    cases hnone.symm.trans hstored
  belongs hsome := by
    obtain ⟨m, hm, hproper⟩ := h.1.loads (Option.isSome_iff_ne_none.mpr hsome)
    obtain ⟨key, ⟨attempt, certificate, hattempt, hshown, hmakes⟩, hmatch⟩ := hproper.made
    exact ⟨attempt, certificate, hattempt, hshown, m, key, hm, hmakes, hmatch⟩
  completes attempt certificate bytes hplain hbelongs := by
    obtain ⟨m, key, hm, hmakes, hmatch⟩ := hbelongs
    refine completes_of_wp (h.wp_completes hplain hmakes (fun m' hm' => hm'.unique hm ▸ hmatch) fun hnone => ?_)
    obtain ⟨stored, hstored, -⟩ := hm
    cases hnone.symm.trans hstored

end Attempts

section Stuck

/-- Any outcome is considered. -/
def anyhow : Contract Op Op.Answer Choice World := contract (fun _ _ _ => True) fun _ _ => True

theorem wp_stuck_enrollInner (hconfig : d.configTemp = true) (hw : Moved b d w) :
    anyhow.wp (enrollInner keys config encodedKey reuse) (fun _ _ => False) (fun _ v => v.disk.configTemp = true) w := by
  have hstays : ∀ {b e v}, e.configTemp = true → Moved b e v → v.disk.configTemp = true := fun he hv => by rwa [hv.disk]
  have hpasses : Passes (fun _ _ _ => True) (fun _ _ => True) keys (fun _ => True) b d (fun e => e.configTemp = true)
      (fun _ v => v.disk.configTemp = true) := passes_configTemp hconfig fun _ _ _ he _ hv => hstays he hv
  refine wp_enrollInner hpasses hw (fun _ _ _ _ _ _ => trivial) ?_ fun _ _ _ _ he _ hv => hstays he hv
  intro _ e m key _ request _ v _ he _ _ _ _ _ _ hv
  refine wp_bind.mpr (wp_submit hv (fun _ _ _ _ => trivial) (fun _ _ hv => hstays he hv) (fun _ _ _ _ _ hv => hstays he hv)
    (fun _ _ _ _ _ _ _ hv => hstays he hv) fun _ _ completion u _ _ _ hu => ?_)
  exact wp_bind.mpr (wp_updateConfig hu (fun _ _ _ _ => trivial) (fun _ _ _ _ => trivial)
    (fun _ hno _ => absurd (hno.symm.trans he) Bool.false_ne_true) (fun _ _ _ _ hv => hstays he hv) fun _ _ _ _ hv => hstays rfl hv)

theorem wp_stuck_call {purpose : EnrollmentPurpose} (hconfig : d.configTemp = true) (hw : Moved b d w) :
    anyhow.wp (do
      let intent ← Prog.ofExcept (intentOf config purpose)
      enrollInner keys config intent.encode reuse) (fun _ _ => False) (fun _ v => v.disk.configTemp = true) w :=
  wp_ofExcept (fun _ _ => wp_stuck_enrollInner hconfig hw) fun _ _ v hv => by rwa [(hw.stay hv).disk]

/-- Once the temporary file of the configuration is left behind, no attempt completes and the file stays. -/
theorem wp_stuck (attempt : Attempt) (hconfig : w.disk.configTemp = true) :
    anyhow.wp (attempt.program keys) (fun _ _ => False) (fun _ v => v.disk.configTemp = true) w := by
  cases attempt with
  | enroll => exact wp_stuck_enrollInner hconfig (.refl w)
  | call config call =>
      cases call with
      | registration => exact wp_stuck_call hconfig (.refl w)
      | rotation =>
          refine wp_bind.mpr (wp_sessionConfig (.refl w) (fun _ _ _ _ => trivial) (fun _ _ _ hv => wp_stuck_call hconfig hv)
            fun _ _ _ _ _ hv => ?_)
          rwa [hv.disk]

end Stuck

section Runs

variable {attempts : Attempt → Prop} {shown : Fingerprint → Prop} {x : (client keys attempts).State}
  {events : List (Event Choice { attempt // attempts attempt } Registration)}

/-- In a run in which nothing is interrupted while a temporary file of stored metadata or of the configuration is there,
the key in use is replaced only by one that was accepted, the bound key is never lost, and attempts can go on. -/
theorem enrollment_survives_crashes (h : Initial keys w)
    (hrun : Run (Restricted (client keys attempts).Step (Careful keys attempts shown)) (w, none) events x) :
    (∀ event y, (client keys attempts).Step x event y → Preserved keys x.1 y.1) ∧
      (∀ publicKey, x.1.server.bound = some publicKey → x.1.disk.Kept keys publicKey) ∧
      (x.2 = none → Resumable keys attempts shown x.1) := by
  have hholds := holds_run h hrun
  refine ⟨fun event y hstep => preserved_of_holds hholds hstep, (sound_of_holds hholds).bound, fun hnone => ?_⟩
  obtain ⟨w, running⟩ := x
  obtain rfl : running = none := hnone
  exact Idle.resumable hholds

/-- A new client that registers. -/
def newcomer (attempt : Attempt) : Prop := attempt = .call (sampleConfig "example.com:443") (.registration .enroll)

def register : Event Choice { attempt // newcomer attempt } Registration := .begin ⟨_, rfl⟩

theorem initial_sampleWorld : Initial sampleKeys (sampleWorld "example.com:443") :=
  ⟨rfl, rfl, rfl, rfl, fun _ hbound => by cases hbound⟩

/-- The first call of a new client, interrupted before its request is sent. -/
def interruption : List (Event Choice { attempt // newcomer attempt } Registration) :=
  register :: (sampleChoices.dropLast.map .act ++ [.crash])

instance (d : Disk) : Decidable d.Fragile :=
  decidable_of_iff (d.configTemp = true ∨ d.metadata.any (fun m => decide (m.requestId ∈ d.metadataTemps)) = true) <| by
    simp only [Disk.Fragile, Option.any_eq_true, decide_eq_true_eq]

/-- No outcome of these events fails, and the files are whole when the client crashes. -/
def Tame (x : (client sampleKeys newcomer).State) : Event Choice { attempt // newcomer attempt } Registration → Prop
  | .act choice => choice ∈ sampleChoices.dropLast
  | .crash => ¬x.1.disk.Fragile
  | _ => True

instance (x : (client sampleKeys newcomer).State) : (event : Event Choice { attempt // newcomer attempt } Registration) → Decidable (Tame x event)
  | .act choice => inferInstanceAs (Decidable (choice ∈ sampleChoices.dropLast))
  | .crash => inferInstanceAs (Decidable ¬x.1.disk.Fragile)
  | .begin _ | .finish | .interfere _ => .isTrue trivial

theorem Tame.careful {x : (client sampleKeys newcomer).State} {event : Event Choice { attempt // newcomer attempt } Registration}
    (h : Tame x event) : Careful sampleKeys newcomer (· = Vector.replicate 32 7) x event := by
  cases event with
  | act choice =>
      intro op next _
      refine ⟨fun hfails => ?_, fun fingerprint => sample_allowed choice (List.dropLast_subset _ h) op x.1 fingerprint⟩
      subst hfails
      have hno : Choice.fails ∉ sampleChoices.dropLast := by decide +kernel
      exact absurd h hno
  | crash => exact h
  | begin | finish | interfere => trivial

/-- A run that is interrupted while its metadata is stored can go on. -/
theorem enrollment_survives_interruption : ∃ w,
    Run (Restricted (client sampleKeys newcomer).Step (Careful sampleKeys newcomer (· = Vector.replicate 32 7)))
      (sampleWorld "example.com:443", none) interruption (w, none) ∧
    w.disk.metadata.isSome = true ∧ Resumable sampleKeys newcomer (· = Vector.replicate 32 7) w := by
  obtain ⟨⟨w, running⟩, hrun, hend⟩ := run_of_exec_any (P := fun x => x.2.isNone = true ∧ x.1.disk.metadata.isSome = true)
    (restricted_of_restrict fun _ _ _ h => h)
    (show (exec (restrict (client sampleKeys newcomer).next Tame) (sampleWorld "example.com:443", none) interruption).any _ = true by
      decide +kernel)
  obtain ⟨hnone, hsome⟩ := hend
  obtain rfl : running = none := Option.isNone_iff_eq_none.mp hnone
  have hrun' := hrun.imp fun _ _ _ hstep => And.intro hstep.1 hstep.2.careful
  exact ⟨w, hrun', hsome, (enrollment_survives_crashes initial_sampleWorld hrun').2.2 rfl⟩

/-- The first call of a new client, accepted, and interrupted before the new configuration is in its place. -/
def leftover : List (Event Choice { attempt // newcomer attempt } Registration) :=
  register :: (sampleChoices.dropLast.map .act ++ [.act (.answered (.accept ⟨"client", 1⟩) true), .act .done, .act .done, .crash])

/-- The temporary file of the configuration is left behind, and every further attempt fails. -/
theorem leftover_blocks_enrollment : ∃ w,
    Run (client sampleKeys newcomer).Step (sampleWorld "example.com:443", none) leftover (w, none) ∧
    ∀ (attempt : Attempt) result v, anyhow.Returns w (attempt.program sampleKeys) result v →
      (∃ error, result = .error error) ∧ v.disk.configTemp = true := by
  obtain ⟨⟨w, running⟩, hrun, hend⟩ := run_of_exec_any (P := fun x => x.2.isNone = true ∧ x.1.disk.configTemp = true)
    (fun _ _ _ h => h)
    (show (exec (client sampleKeys newcomer).next (sampleWorld "example.com:443", none) leftover).any _ = true by decide +kernel)
  obtain ⟨hnone, hconfig⟩ := hend
  obtain rfl : running = none := Option.isNone_iff_eq_none.mp hnone
  refine ⟨w, hrun, fun attempt result v hreturns => ?_⟩
  have hends := wp_returns (wp_stuck attempt hconfig) hreturns
  cases result with
  | ok => exact hends.elim
  | error error => exact ⟨⟨error, rfl⟩, hends⟩

end Runs

end Rustgo.ClientEnrollment
