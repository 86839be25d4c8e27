import Rustgo.EnrollmentPolls

namespace Rustgo.ClientEnrollment

open Durable Contract
open Enrollment
open Postcard.Format (utf8)
open Protocol
open Runs

/-- The entry points of an enrollment. -/
inductive Attempt
  | enroll (config : ClientSection) (encodedKey : String)
  | call (config : ClientSection) (call : Call)

namespace Attempt

def program (keys : Keys) : Attempt → Action EnrollmentCompletion
  | enroll config encodedKey => ClientEnrollment.enroll keys config encodedKey
  | call config request => request.program keys config

/-- The key that the attempt comes with, or that it makes of this certificate. -/
inductive Makes (certificate : Fingerprint) : Attempt → EnrollmentKeyMaterial → Prop
  | legacy {config encodedKey key} (hparse : parseCredential encodedKey = .ok (.legacy key))
      (hcertificate : key.certificateFingerprint = certificate) : Makes certificate (.enroll config encodedKey) key
  | approval {config encodedKey intent key} (hparse : parseCredential encodedKey = .ok (.approval intent))
      (hkey : forVerifiedServer intent.purpose config.serverAddr certificate = .ok key) : Makes certificate (.enroll config encodedKey) key
  | call {config call key} (hkey : forVerifiedServer call.purpose config.serverAddr certificate = .ok key) :
      Makes certificate (.call config call) key

end Attempt

namespace Disk

/-- The key with this public key is there. -/
def Holds (keys : Keys) (d : Disk) (path : KeyPath) (publicKey : Bytes) : Prop :=
  ∃ key, d.loadKey path = some key ∧ utf8 (keys.publicKey key) = publicKey

/-- The key is at its final path or at the candidate path. -/
def Kept (keys : Keys) (d : Disk) (publicKey : Bytes) : Prop :=
  d.Holds keys .final publicKey ∨ ∃ m, d.Loads keys m ∧ d.Holds keys m.candidatePrivateKey publicKey

/-- The temporary file of the configuration or of stored metadata is there. -/
def Fragile (d : Disk) : Prop := d.configTemp = true ∨ ∃ m, d.metadata = some m ∧ m.requestId ∈ d.metadataTemps

end Disk

/-- Stored metadata as this version writes it, for one of these keys. -/
structure Proper (made : EnrollmentKeyMaterial → Prop) (m : PendingMetadata) : Prop where
  final : m.finalPrivateKey = .final
  version : m.approvalMetadataVersion = 2
  intent : ∀ text, m.approvalIntent = some text → ∃ result, RegistrationIntent.decode text = .ok result
  candidate : m.reuseExisting = false → m.candidatePrivateKey ≠ .final
  made : ∃ key, made key ∧ Matches m key

/-- What holds between any two operations. -/
structure Sound (keys : Keys) (made : EnrollmentKeyMaterial → Prop) (d : Disk) (s : Server) : Prop where
  loads : d.metadata.isSome = true → ∃ m, d.Loads keys m ∧ Proper made m
  opened : ∀ r ∈ s.opened, ∃ m, d.Loads keys m ∧ r = (m.requestId, utf8 m.publicKey)
  bound : ∀ publicKey, s.bound = some publicKey → d.Kept keys publicKey

variable {keys : Keys} {made : EnrollmentKeyMaterial → Prop} {d e : Disk} {s t : Server} {m : PendingMetadata} {b v w : World}

theorem Disk.Loads.holds (h : d.Loads keys m) : d.Holds keys m.candidatePrivateKey (utf8 m.publicKey) := by
  obtain ⟨-, -, -, -, key, hkey, hpublic⟩ := h
  exact ⟨key, hkey, congrArg utf8 hpublic⟩

theorem Disk.Loads.metadata (h : d.Loads keys m) : d.metadata.isSome = true := by
  obtain ⟨stored, hstored, -⟩ := h
  rw [hstored, Option.isSome_some]

/-- Without metadata no request is open, and the key that is bound is in its place. -/
theorem Sound.without_metadata (h : Sound keys made d s) (hnone : d.metadata = none) :
    s.opened = [] ∧ ∀ publicKey, s.bound = some publicKey → d.Holds keys .final publicKey := by
  have hno : ∀ m, ¬d.Loads keys m := fun m hm => by simpa [hnone] using hm.metadata
  refine ⟨List.eq_nil_iff_forall_not_mem.mpr fun r hr => ?_, fun publicKey hbound => ?_⟩
  · obtain ⟨m, hm, -⟩ := h.opened r hr
    exact hno m hm
  · exact (h.bound publicKey hbound).resolve_right fun ⟨m, hm, _⟩ => hno m hm

theorem Sound.of_without_metadata (hnone : d.metadata = none) (hopened : s.opened = [])
    (hbound : ∀ publicKey, s.bound = some publicKey → d.Holds keys .final publicKey) : Sound keys made d s := by
  refine ⟨fun hsome => ?_, fun r hr => ?_, fun publicKey h => .inl (hbound publicKey h)⟩
  · rw [hnone] at hsome
    cases hsome
  · rw [hopened] at hr
    cases hr

section Server

theorem Sound.bind {request : Registration} (h : Sound keys made d s) (hm : d.Loads keys m)
    (hrequest : request = (m.requestId, utf8 m.publicKey)) : Sound keys made d (s.bind request) := by
  refine ⟨h.loads, fun r hr => h.opened r (List.mem_filter.mp hr).1, fun publicKey hbound => .inr ⟨m, hm, ?_⟩⟩
  obtain rfl := Option.some.inj hbound
  exact hrequest ▸ hm.holds

/-- An approval keeps what holds. -/
theorem Sound.approves (h : Sound keys made d s) (hst : s.Approves t) : Sound keys made d t := by
  induction hst with
  | refl => exact h
  | step _ hopen ih =>
      obtain ⟨m, hm, hrequest⟩ := ih.opened _ hopen
      exact ih.bind hm hrequest

theorem Sound.moved (h : Sound keys made d b.server) (hv : Moved b d v) : Sound keys made v.disk v.server := by
  rw [hv.disk]
  exact h.approves hv.server

theorem Sound.receive {request : Registration} (h : Sound keys made d s) (hm : d.Loads keys m)
    (hrequest : request = (m.requestId, utf8 m.publicKey)) (verdict : Verdict) : Sound keys made d (s.receive request verdict).1 := by
  cases verdict with
  | pend code =>
      rw [Server.receive]
      split
      · exact h
      · refine ⟨h.loads, fun r hr => ?_, h.bound⟩
        rcases List.mem_cons.mp hr with rfl | hr
        · exact ⟨m, hm, hrequest⟩
        · exact h.opened r (List.mem_filter.mp hr).1
  | reject => exact h
  | accept => exact h.bind hm hrequest

/-- Once the request is accepted, nothing is left to approve. -/
theorem Sound.opened_bind {request : Registration} (h : Sound keys made d s) (hm : d.Loads keys m)
    (hrequest : request = (m.requestId, utf8 m.publicKey)) : (s.bind request).opened = [] := by
  refine List.filter_eq_nil_iff.mpr fun r hr => ?_
  obtain ⟨m', hm', rfl⟩ := h.opened r hr
  simp [hrequest, hm'.unique hm]

theorem Server.Approves.eq_of_opened (h : s.Approves t) (hopened : s.opened = []) : t = s := by
  induction h with
  | refl => rfl
  | step _ hopen ih =>
      obtain rfl := ih
      rw [hopened] at hopen
      cases hopen

end Server

section Files

/-- What others see of the key files and the metadata is what counts. -/
theorem Sound.congr (h : Sound keys made d s) (hmetadata : e.metadata = d.metadata) (hkeys : e.keyFiles = d.keyFiles) :
    Sound keys made e s := by
  obtain ⟨metadata, keyFiles, temps, configTemp, config⟩ := d
  obtain ⟨metadata', keyFiles', temps', configTemp', config'⟩ := e
  obtain rfl : metadata' = metadata := hmetadata
  obtain rfl : keyFiles' = keyFiles := hkeys
  exact ⟨h.loads, h.opened, h.bound⟩

theorem Sound.scratch (h : Sound keys made d s) (hnone : d.metadata = none) (he : d.Scratch e) : Sound keys made e s := by
  obtain ⟨hopened, hbound⟩ := h.without_metadata hnone
  refine .of_without_metadata (he.metadata.trans hnone) hopened fun publicKey hpublic => ?_
  obtain ⟨key, hkey, hpublic⟩ := hbound publicKey hpublic
  exact ⟨key, by rw [← hkey, Disk.loadKey, Disk.loadKey, he.final], hpublic⟩

theorem Created.final {key : EnrollmentKeyMaterial} {reuse : Bool} (h : Created keys d key reuse m e) :
    e.loadKey .final = d.loadKey .final := by
  cases h with
  | reused => rfl
  | generated secret bytes hnew => simp only [Disk.loadKey, Disk.keyFiles_setKey_of_ne d _ (show KeyPath.final ≠ .candidate _ by simp)]

theorem Created.proper {key : EnrollmentKeyMaterial} {reuse : Bool} (h : Created keys d key reuse m e) (hmade : made key) : Proper made m := by
  have hmatch := h.matches
  cases h with
  | reused => exact ⟨rfl, rfl, fun text htext => (by cases htext), fun hreuse => (by cases hreuse), key, hmade, hmatch⟩
  | generated => exact ⟨rfl, rfl, fun text htext => (by cases htext), fun _ hfinal => (by cases hfinal), key, hmade, hmatch⟩

/-- An attempt goes on with proper metadata. -/
theorem Sound.held (h : Sound keys made d s) (he : Held keys made d e m) : Sound keys made e s ∧ Proper made m := by
  cases he with
  | loaded hloads =>
      obtain ⟨m', hm', hproper⟩ := h.loads hloads.metadata
      exact ⟨h, hm'.unique hloads ▸ hproper⟩
  | created hmade hfree haddr hnew hcreated =>
      have hnone : d.metadata = none := by simpa using fun hsome => hfree (.inl hsome)
      have hloads := hcreated.loads hfree haddr
      obtain ⟨hopened, hbound⟩ := h.without_metadata hnone
      have hproper := hcreated.proper hmade
      refine ⟨⟨fun _ => ⟨m, hloads, hproper⟩, fun r hr => ?_, fun publicKey hpublic => ?_⟩, hproper⟩
      · rw [hopened] at hr
        cases hr
      · obtain ⟨key, hkey, hpublic⟩ := hbound publicKey hpublic
        exact .inl ⟨key, hcreated.final.trans hkey, hpublic⟩

/-- Binding an intent keeps what holds. -/
theorem Sound.stored {text : String} {result : RegistrationIntent} (h : Sound keys made d s) (hm : d.Loads keys m) (hproper : Proper made m)
    (hresult : RegistrationIntent.decode text = .ok result) :
    Sound keys made { d with metadata := some { m with approvalIntent := some text } } s := by
  have hloads : Disk.Loads keys { d with metadata := some { m with approvalIntent := some text } } { m with approvalIntent := some text } := by
    obtain ⟨-, -, -, hvalid⟩ := hm
    exact ⟨_, rfl, Disk.recovered_of_exists hvalid.exists, hvalid⟩
  refine ⟨fun _ => ⟨_, hloads, hproper.final, hproper.version, fun text' htext => ?_, hproper.candidate, hproper.made⟩,
    fun r hr => ?_, fun publicKey hpublic => ?_⟩
  · obtain rfl := Option.some.inj htext
    exact ⟨result, hresult⟩
  · obtain ⟨m', hm', rfl⟩ := h.opened r hr
    obtain rfl := hm'.unique hm
    exact ⟨_, hloads, rfl⟩
  · rcases h.bound publicKey hpublic with hfinal | ⟨m', hm', hcandidate⟩
    · exact .inl hfinal
    · obtain rfl := hm'.unique hm
      exact .inr ⟨_, hloads, hcandidate⟩

/-- Metadata that names a candidate is loaded as it is stored. -/
theorem Disk.Loads.stored (h : d.Loads keys m) (hreuse : m.reuseExisting = false) : d.metadata = some m := by
  obtain ⟨stored, hstored, hrecovered, -⟩ := h
  rw [Disk.recovered, recover] at hrecovered
  split at hrecovered
  · rw [← hrecovered] at hreuse
    cases hreuse
  · rw [hstored, hrecovered]

theorem Disk.Loads.candidate_of_reuse (h : d.Loads keys m) (hreuse : m.reuseExisting = true) :
    m.candidatePrivateKey = m.finalPrivateKey := by
  obtain ⟨-, -, -, hvalid, -⟩ := h
  simp only [PendingMetadata.isValid, decide_eq_true_eq] at hvalid
  exact not_not.mp fun hne => hvalid.2.2.2.2.2.2.2.2.2 ⟨hreuse, hne⟩

/-- The candidate is found at its final path. -/
def PendingMetadata.moved (m : PendingMetadata) : PendingMetadata :=
  { m with candidatePrivateKey := m.finalPrivateKey, reuseExisting := true }

theorem Disk.loadKey_promoted {key : PrivateKey} (hfinal : m.finalPrivateKey = .final) (hreuse : m.reuseExisting = false)
    (hkey : d.keyFiles m.candidatePrivateKey = some (.valid key)) : (d.promoted m).loadKey .final = some key := by
  rw [Disk.promoted, hreuse, if_neg Bool.false_ne_true, hfinal, hkey, Disk.loadKey, Disk.keyFiles_setKey_self]

theorem Disk.Loads.promoted (h : d.Loads keys m) (hproper : Proper made m) (hreuse : m.reuseExisting = false) :
    (d.promoted m).Loads keys m.moved := by
  have hstored := h.stored hreuse
  obtain ⟨-, -, -, hvalid⟩ := h
  obtain ⟨key, hkey, hpublic⟩ := hvalid.candidate
  have hload := Disk.loadKey_promoted hproper.final hreuse hkey
  have hgone : ((d.promoted m).keyFiles m.candidatePrivateKey).isSome = false := by
    rw [Disk.promoted, hreuse, if_neg Bool.false_ne_true, hproper.final,
      Disk.keyFiles_setKey_of_ne _ _ (hproper.candidate hreuse), Disk.keyFiles_setKey_self, Option.isSome_none]
  refine ⟨m, (Disk.metadata_promoted d m).trans hstored, ?_, ?_, key, (congrArg (d.promoted m).loadKey hproper.final).trans hload, hpublic⟩
  · rw [Disk.recovered, hgone, hproper.final, hload, recover, if_pos ⟨rfl, decide_eq_true hpublic⟩, PendingMetadata.moved]
  · obtain ⟨hvalid, -⟩ := hvalid
    simp only [PendingMetadata.isValid, decide_eq_true_eq] at hvalid ⊢
    obtain ⟨h1, h2, h3, h4, h5, h6, h7, h8, -, -⟩ := hvalid
    exact ⟨h1, h2, h3, h4, h5, h6, h7, h8, fun h => (by cases h.2.2.1), fun h => h.2 rfl⟩

/-- After the promotion the bound key is at its final path, with or without the metadata. -/
theorem Sound.promoted (h : Sound keys made d s) (hm : d.Loads keys m) (hproper : Proper made m) (hopened : s.opened = [])
    (hbound : s.bound = some (utf8 m.publicKey)) :
    Sound keys made (d.promoted m) s ∧ Sound keys made { d.promoted m with metadata := none } s := by
  have hfinal : (d.promoted m).Holds keys .final (utf8 m.publicKey) := by
    cases hreuse : m.reuseExisting with
    | true =>
        rw [Disk.promoted, hreuse, if_pos rfl, ← hproper.final, ← hm.candidate_of_reuse hreuse]
        exact hm.holds
    | false =>
        obtain ⟨-, -, -, hvalid⟩ := hm
        obtain ⟨key, hkey, hpublic⟩ := hvalid.candidate
        exact ⟨key, Disk.loadKey_promoted hproper.final hreuse hkey, congrArg utf8 hpublic⟩
  have hholds : ∀ publicKey, s.bound = some publicKey → (d.promoted m).Holds keys .final publicKey := fun publicKey hpublic => by
    rwa [← Option.some.inj (hbound.symm.trans hpublic)]
  refine ⟨?_, .of_without_metadata rfl hopened hholds⟩
  cases hreuse : m.reuseExisting with
  | true => rwa [Disk.promoted, hreuse, if_pos rfl]
  | false =>
      refine ⟨fun _ => ⟨m.moved, hm.promoted hproper hreuse, ?_⟩, fun r hr => ?_, fun publicKey hpublic => .inl (hholds publicKey hpublic)⟩
      · exact ⟨hproper.final, hproper.version, hproper.intent, fun h => (by cases h), hproper.made⟩
      · rw [hopened] at hr
        cases hr

end Files

section Attempts

variable {shown : Fingerprint → Prop} {config : ClientSection} {encodedKey : String} {reuse : Bool} {key : EnrollmentKeyMaterial}
  {request : EnrollmentRequest}

/-- A key is replaced by one that was accepted. -/
def Permitted (keys : Keys) (w : World) : Op → Prop
  | .file (.replaceKey source target) =>
      target = .final ∧ ∃ id publicKey, w.disk.Holds keys source publicKey ∧ (id, publicKey) ∈ w.server.accepted
  | _ => True

/-- Nothing fails while the files are fragile. -/
def steady (shown : Fingerprint → Prop) (_ : Op) (choice : Choice) (w : World) : Prop :=
  (choice = .fails → ¬w.disk.Fragile) ∧ ∀ fingerprint, choice = .certificate fingerprint → shown fingerprint

def enrolling (keys : Keys) (made : EnrollmentKeyMaterial → Prop) (shown : Fingerprint → Prop) : Contract Op Op.Answer Choice World :=
  contract (steady shown) fun op w => Sound keys made w.disk w.server ∧ Permitted keys w op

/-- What holds between two attempts. -/
def Idle (keys : Keys) (made : EnrollmentKeyMaterial → Prop) (w : World) : Prop :=
  Sound keys made w.disk w.server ∧ ¬w.disk.Fragile

theorem Sound.idle (h : Sound keys made d b.server) (hwhole : ¬d.Fragile) (hv : Moved b d v) : Idle keys made v :=
  ⟨h.moved hv, by rwa [hv.disk]⟩

theorem Sound.quiet (h : Sound keys made d b.server) :
    Quiet (fun op w => Sound keys made w.disk w.server ∧ Permitted keys w op) b d := by
  intro op v hop hv
  refine ⟨h.moved hv, ?_⟩
  cases op with
  | file op =>
      cases op with
      | replaceKey => cases hop
      | _ => trivial
  | _ => trivial

theorem not_faulty_of_fragile (h : d.Fragile) : ¬Faulty (steady shown) b d := by
  rintro ⟨op, v, hv, hallowed⟩
  exact hallowed.1 rfl (by rwa [hv.disk])

theorem Disk.Loads.requestId (h : d.Loads keys m) : ∃ stored, d.metadata = some stored ∧ stored.requestId = m.requestId := by
  obtain ⟨stored, hstored, rfl, -⟩ := h
  refine ⟨stored, hstored, ?_⟩
  rw [Disk.recovered, recover]
  split <;> rfl

theorem Created.configTemp (h : Created keys d key reuse m e) : e.configTemp = d.configTemp := by
  cases h <;> rfl

theorem Created.metadata (h : Created keys d key reuse m e) : e.metadata = some m := by
  cases h <;> rfl

theorem not_fragile_of_metadata (hconfig : d.configTemp = false) (hmetadata : d.metadata = some m) (hnew : m.requestId ∉ d.metadataTemps) :
    ¬d.Fragile := by
  rintro (htemp | ⟨m', hm', hmem⟩)
  · rw [hconfig] at htemp
    cases htemp
  · obtain rfl := Option.some.inj (hmetadata.symm.trans hm')
    exact hnew hmem

theorem configTemp_of_not_fragile (h : ¬d.Fragile) : d.configTemp = false := by
  cases hconfig : d.configTemp with
  | false => rfl
  | true => exact absurd (.inl hconfig) h

theorem Disk.Loads.new_of_not_fragile (hm : d.Loads keys m) (h : ¬d.Fragile) : m.requestId ∉ d.metadataTemps := by
  obtain ⟨stored, hstored, hid⟩ := hm.requestId
  exact fun hmem => h (.inr ⟨stored, hstored, hid ▸ hmem⟩)

theorem Held.not_fragile (h : Held keys made d e m) (hwhole : ¬d.Fragile) : ¬e.Fragile := by
  cases h with
  | loaded => exact hwhole
  | created _ _ _ hnew hcreated =>
      exact not_fragile_of_metadata (hcreated.configTemp.trans (configTemp_of_not_fragile hwhole)) hcreated.metadata hnew

/-- What holds between two attempts holds on the way to the request. -/
theorem Sound.passes (h : Sound keys made d b.server) (hwhole : ¬d.Fragile) :
    Passes (steady shown) (fun op w => Sound keys made w.disk w.server ∧ Permitted keys w op) keys made b d
      (fun e => Sound keys made e b.server ∧ ¬e.Fragile) (fun _ => Idle keys made) where
  start := ⟨h, hwhole⟩
  quiet _ he := he.1.quiet
  scratch hnone e he := by
    refine ⟨h.scratch hnone he, ?_⟩
    rintro (htemp | ⟨m, hm, -⟩)
    · exact hwhole (.inl (he.configTemp.symm.trans htemp))
    · cases (he.metadata.trans hnone).symm.trans hm
  held e m he := ⟨(h.held he).1, he.not_fragile hwhole⟩
  stored e m text result he _ hresult := by
    obtain ⟨hsound, hproper⟩ := h.held he
    have hnot := he.not_fragile hwhole
    have hconfig := configTemp_of_not_fragile hnot
    have hnew := he.loads.new_of_not_fragile hnot
    exact ⟨hsound.stored he.loads hproper hresult, not_fragile_of_metadata hconfig rfl hnew⟩
  temp e m he _ := (Sound.congr (e := e.withTemp m.requestId) (h.held he).1 rfl rfl).quiet
  torn error e m v _ he _ hfaulty _ := by
    obtain ⟨stored, hstored, hid⟩ := he.loads.requestId
    exact absurd hfaulty (not_faulty_of_fragile (.inr ⟨stored, hstored, by rw [hid]; exact List.mem_cons_self⟩))

theorem registration_of_enrollmentRequest {text : String} (h : enrollmentRequest m text = .ok request) :
    registration request = (m.requestId, utf8 m.publicKey) := by
  unfold enrollmentRequest BoundedString.tryFrom BoundedBytes.tryFrom at h
  split at h
  · split at h
    · split at h
      · obtain rfl := Except.ok.inj h
        rfl
      · cases h
    · cases h
  · cases h

theorem Disk.metadataTemps_promoted (d : Disk) (m : PendingMetadata) : (d.promoted m).metadataTemps = d.metadataTemps := by
  rw [Disk.promoted]
  split <;> rfl

theorem Disk.configTemp_promoted (d : Disk) (m : PendingMetadata) : (d.promoted m).configTemp = d.configTemp := by
  rw [Disk.promoted]
  split <;> rfl

theorem Disk.not_fragile_promoted (h : ¬d.Fragile) : ¬(d.promoted m).Fragile := by
  rwa [Disk.Fragile, Disk.configTemp_promoted, Disk.metadata_promoted, Disk.metadataTemps_promoted]

/-- From its request on an attempt keeps what holds. -/
theorem Sound.wp_finish (h : Sound keys made d b.server) (hwhole : ¬d.Fragile) (hm : d.Loads keys m)
    (hrequest : registration request = (m.requestId, utf8 m.publicKey)) (hw : Moved b d w) :
    (enrolling keys made shown).wp (finish keys config key m request) (fun _ => Idle keys made) (fun _ => Idle keys made) w := by
  have hproper : Proper made m := by
    obtain ⟨m', hm', hproper⟩ := h.loads hm.metadata
    exact hm'.unique hm ▸ hproper
  have hsent : ∀ {v : World} verdict, Moved b d v → Sound keys made d (v.deliver request verdict).server :=
    fun verdict hv => (h.approves hv.server).receive hm hrequest verdict
  refine wp_bind.mpr (wp_submit hw h.quiet (fun v _ hv => h.idle hwhole hv) (fun v verdict u hv _ hu => (hsent verdict hv).idle hwhole hu)
    (fun v verdict code u hv _ _ hu => (hsent verdict hv).idle hwhole hu) fun v verdict completion u hv _ hreply hu => ?_)
  have hsound := hsent verdict hv
  have hserver : (v.deliver request verdict).server = v.server.bind (registration request) := by
    cases verdict with
    | accept => rfl
    | reject => cases hreply
    | pend =>
        rw [Server.receive] at hreply
        split at hreply <;> cases hreply
  have hopened : (v.deliver request verdict).server.opened = [] := by
    rw [hserver]
    exact (h.approves hv.server).opened_bind hm hrequest
  have hbound : (v.deliver request verdict).server.bound = some (utf8 m.publicKey) := by rw [hserver, Server.bind, hrequest]
  refine wp_bind.mpr (wp_updateConfig hu hsound.quiet (Sound.congr (e := { d with configTemp := true }) hsound rfl rfl).quiet (fun t hconfig ht => ?_)
    (fun _ t _ _ ht => hsound.idle hwhole ht) fun _ t _ hfaulty _ => absurd hfaulty (not_faulty_of_fragile (.inl rfl)))
  generalize hd : ({ d with config := updatedConfig config d.config key completion.clientId, configTemp := false } : Disk) = d' at ht
  have hm' : d'.Loads keys m := hd ▸ hm
  have hsound' : Sound keys made d' (v.deliver request verdict).server := hsound.congr (by rw [← hd]) (by rw [← hd])
  have hwhole' : ¬d'.Fragile := by
    rw [← hd]
    rintro (htemp | hmetadata)
    · cases htemp
    · exact hwhole (.inr hmetadata)
  obtain ⟨hpromoted, hremoved⟩ := hsound'.promoted hm' hproper hopened hbound
  have hgone : ¬({ d'.promoted m with metadata := none } : Disk).Fragile := by
    rintro (htemp | ⟨_, hno, -⟩)
    · exact Disk.not_fragile_promoted hwhole' (.inl htemp)
    · cases hno
  refine wp_bind.mpr (wp_promote ht hsound'.quiet (fun _ _ u hu => ?_) (fun _ => hpromoted.quiet) (fun u _ hu t ht => hremoved.idle hgone (hu.stay ht))
    (fun _ u _ _ hu => hsound'.idle hwhole' hu) fun _ u _ _ _ hu => hpromoted.idle (Disk.not_fragile_promoted hwhole') hu)
  refine ⟨hsound'.moved hu, hproper.final, m.requestId, utf8 m.publicKey, ?_, ?_⟩
  · rw [hu.disk]
    exact hm'.holds
  · rw [hu.server.eq_of_opened hopened, hserver, Server.bind, ← hrequest]
    exact List.mem_cons_self

/-- An attempt keeps what holds, however it ends. -/
theorem Idle.wp_enrollInner (h : Idle keys made w) (hv : Moved w w.disk v)
    (hmade : ∀ credential certificate key, shown certificate → parseCredential encodedKey = .ok credential →
      keyOf (addressOf config credential) certificate credential = .ok key →
      (∀ legacyKey, credential = .legacy legacyKey → legacyKey.certificateFingerprint = certificate) → made key) :
    (enrolling keys made shown).wp (enrollInner keys config encodedKey reuse) (fun _ => Idle keys made) (fun _ => Idle keys made) v := by
  refine ClientEnrollment.wp_enrollInner (h.1.passes h.2) hv ?_ ?_ fun _ e u _ he _ hu => he.1.idle he.2 hu
  · rintro credential certificate key hparse hkey ⟨server, hserver, haccepts, u, -, hallowed⟩
    refine hmade credential certificate key (hallowed.2 certificate rfl) hparse hkey fun legacyKey hlegacy => ?_
    subst hlegacy
    cases hserver with
    | legacy => exact of_decide_eq_true haccepts
  · intro credential e m key certificate request text u _ he hloads _ _ _ hrequest _ hu
    exact he.1.wp_finish he.2 hloads (registration_of_enrollmentRequest hrequest) hu

/-- The keys that these attempts can be about when the server shows these certificates. -/
def MadeBy (attempts : Attempt → Prop) (shown : Fingerprint → Prop) (key : EnrollmentKeyMaterial) : Prop :=
  ∃ attempt certificate, attempts attempt ∧ shown certificate ∧ attempt.Makes certificate key

variable {attempts : Attempt → Prop}

theorem Idle.wp_call {purpose : EnrollmentPurpose} {config' : ClientSection} {call : Call}
    (h : Idle keys (MadeBy attempts shown) w) (ha : attempts (.call config call)) (hpurpose : call.purpose = purpose)
    (hconfig : config'.serverAddr = config.serverAddr) (hv : Moved w w.disk v) :
    (enrolling keys (MadeBy attempts shown) shown).wp (do
      let intent ← Prog.ofExcept (intentOf config' purpose)
      enrollInner keys config' intent.encode reuse)
      (fun _ => Idle keys (MadeBy attempts shown)) (fun _ => Idle keys (MadeBy attempts shown)) v := by
  refine wp_ofExcept (fun intent hintent => ?_) fun _ _ u hu => h.1.idle h.2 (hv.stay hu)
  obtain ⟨hbuilt, rfl⟩ := intentOf_built hintent
  refine h.wp_enrollInner hv fun credential certificate key hshown hparse hkey _ => ⟨_, certificate, ha, hshown, .call ?_⟩
  obtain rfl := Except.ok.inj ((parseCredential_encode hbuilt).symm.trans hparse)
  rw [hpurpose, ← hconfig]
  exact hkey

theorem Idle.wp_program {attempt : Attempt} (h : Idle keys (MadeBy attempts shown) w) (ha : attempts attempt) :
    (enrolling keys (MadeBy attempts shown) shown).wp (attempt.program keys)
      (fun _ => Idle keys (MadeBy attempts shown)) (fun _ => Idle keys (MadeBy attempts shown)) w := by
  cases attempt with
  | enroll config encodedKey =>
      refine h.wp_enrollInner (.refl w) fun credential certificate key hshown hparse hkey hlegacy => ⟨_, certificate, ha, hshown, ?_⟩
      cases credential with
      | approval intent => exact .approval hparse hkey
      | legacy legacyKey =>
          obtain rfl := Except.ok.inj hkey
          exact .legacy hparse (hlegacy _ rfl)
  | call config call =>
      cases call with
      | registration purpose => exact h.wp_call ha rfl rfl (.refl w)
      | rotation =>
          refine wp_bind.mpr (wp_sessionConfig (.refl w) h.1.quiet (fun config' v hconfig hv => ?_) fun _ v _ _ _ hv => h.1.idle h.2 hv)
          refine h.wp_call ha rfl ?_ hv
          rcases hconfig with rfl | ⟨-, profile, -, rfl⟩ <;> rfl

end Attempts

section Runs

instance : LawfulBEq Registration := inferInstance

/-- Somebody approves an open request. -/
def approve (request : Registration) (w : World) : Option World :=
  if request ∈ w.server.opened then some { w with server := w.server.bind request } else none

/-- A client that makes these attempts. -/
def client (keys : Keys) (attempts : Attempt → Prop) :
    System Op Op.Answer Choice World EnrollmentError EnrollmentCompletion { attempt // attempts attempt } Registration where
  perform := perform
  program attempt := attempt.1.program keys
  interfere := approve

theorem moved_of_approve {request : Registration} (h : approve request w = some v) : Moved w w.disk v := by
  rw [approve] at h
  split at h
  · next hopen =>
    obtain rfl := Option.some.inj h
    exact ⟨rfl, rfl, (Server.Approves.refl _).step hopen⟩
  · cases h

/-- A client whose key, if one is bound, is in its place, and that has asked for nothing yet. -/
structure Initial (keys : Keys) (w : World) : Prop where
  metadata : w.disk.metadata = none
  configTemp : w.disk.configTemp = false
  opened : w.server.opened = []
  accepted : w.server.accepted = []
  bound : ∀ publicKey, w.server.bound = some publicKey → w.disk.Holds keys .final publicKey

theorem Initial.idle (h : Initial keys w) : Idle keys made w := by
  refine ⟨.of_without_metadata h.metadata h.opened h.bound, ?_⟩
  rintro (htemp | ⟨m, hm, -⟩)
  · rw [h.configTemp] at htemp
    cases htemp
  · rw [h.metadata] at hm
    cases hm

variable {attempts : Attempt → Prop} {shown : Fingerprint → Prop} {events : List (Event Choice { attempt // attempts attempt } Registration)}
  {x y : (client keys attempts).State}

/-- A crash comes while the files are not fragile, and nothing fails while they are. -/
def Careful (keys : Keys) (attempts : Attempt → Prop) (shown : Fingerprint → Prop) (x : (client keys attempts).State)
    (event : Event Choice { attempt // attempts attempt } Registration) : Prop :=
  (client keys attempts).Allowed (steady shown) (fun w => ¬w.disk.Fragile) x event

theorem holds_run (h : Initial keys w) (hrun : Run (Restricted (client keys attempts).Step (Careful keys attempts shown)) (w, none) events x) :
    System.Holds (enrolling keys (MadeBy attempts shown) shown) (Idle keys (MadeBy attempts shown)) x := by
  refine System.Holds.run rfl (fun _ _ _ => moved_of_approve) (fun s t hs hst => hs.1.idle hs.2 hst) (fun attempt s hs => hs.wp_program attempt.2)
    (fun op s hguard hwhole => ⟨hguard.1, hwhole⟩) ?_ hrun
  exact h.idle

/-- At any time the files are sound. -/
theorem sound_of_holds (h : System.Holds (S := client keys attempts) (enrolling keys made shown) (Idle keys made) x) :
    Sound keys made x.1.disk x.1.server := by
  obtain ⟨w, running⟩ := x
  cases running with
  | none => exact h.1
  | some program =>
      cases program with
      | ret => exact (h w (.refl w)).1
      | fail => exact (h w (.refl w)).1
      | act => exact (h w (.refl w)).1.1

/-- The key in use stays, or is replaced by one that was accepted. -/
def Preserved (keys : Keys) (x y : World) : Prop :=
  y.disk.keyFiles .final = x.disk.keyFiles .final ∨
    ∃ key id, y.disk.keyFiles .final = some (.valid key) ∧ (id, utf8 (keys.publicKey key)) ∈ x.server.accepted

theorem Preserved.of_apply {op : FileOp} {server : Server} (hpermitted : Permitted keys ⟨d, server, []⟩ (.file op))
    (h : op.apply d = some e) : e.keyFiles .final = d.keyFiles .final ∨
      ∃ key id, e.keyFiles .final = some (.valid key) ∧ (id, utf8 (keys.publicKey key)) ∈ server.accepted := by
  cases op with
  | replaceKey source target =>
      obtain ⟨rfl, id, publicKey, ⟨key, hkey, rfl⟩, haccepted⟩ := hpermitted
      obtain ⟨file, hfile, rfl⟩ := Option.map_eq_some_iff.mp h
      rw [Disk.loadKey, hfile] at hkey
      refine .inr ⟨key, id, ?_, haccepted⟩
      rw [Disk.keyFiles_setKey_self]
      cases file with
      | valid => rw [Option.some.inj hkey]
      | invalid => cases hkey
  | createDirectory | persistPublicKey | writeMetadataTemp | writeConfigTemp | installMetadata | installConfig =>
      obtain rfl := Option.some.inj h
      exact .inl rfl
  | createMetadataTemp | removeMetadata | createConfigTemp =>
      rw [FileOp.apply] at h
      split at h <;> cases h
      exact .inl rfl

theorem Preserved.of_perform {op : Op} {choice : Choice} {answer : op.Answer} (hpermitted : Permitted keys w op)
    (h : perform op choice w = some (answer, v)) : Preserved keys w v := by
  cases op with
  | file op =>
      cases choice with
      | done =>
          rw [perform_file] at h
          split at h
          · next hd =>
            obtain ⟨-, rfl⟩ := Prod.mk.inj (Option.some.inj h)
            exact Preserved.of_apply hpermitted hd
          · obtain ⟨-, rfl⟩ := Prod.mk.inj (Option.some.inj h)
            exact .inl rfl
      | fails =>
          cases h
          exact .inl rfl
      | _ => cases h
  | persistPrivateKey id =>
      cases choice with
      | generated key =>
          rw [perform_persistPrivateKey] at h
          split at h
          · obtain ⟨-, rfl⟩ := Prod.mk.inj (Option.some.inj h)
            exact .inl rfl
          · obtain ⟨-, rfl⟩ := Prod.mk.inj (Option.some.inj h)
            exact .inl (Disk.keyFiles_setKey_of_ne _ _ (by simp))
      | fails =>
          cases h
          exact .inl rfl
      | _ => cases h
  | _ =>
      cases choice <;> cases h
      all_goals exact .inl rfl

/-- No step overwrites the key in use before its successor was accepted. -/
theorem preserved_of_holds {event : Event Choice { attempt // attempts attempt } Registration}
    (h : System.Holds (S := client keys attempts) (enrolling keys made shown) (Idle keys made) x)
    (hstep : (client keys attempts).Step x event y) : Preserved keys x.1 y.1 := by
  unfold System.Step System.next at hstep
  split at hstep
  case h_2 s op next choice =>
      obtain ⟨⟨answer, t⟩, ht, rfl⟩ := Option.map_eq_some_iff.mp hstep
      exact Preserved.of_perform (h s (.refl s)).1.2 ht
  case h_6 s running cause =>
      obtain ⟨t, ht, rfl⟩ := Option.map_eq_some_iff.mp hstep
      exact .inl (congrArg (fun d => d.keyFiles .final) (moved_of_approve ht).disk)
  all_goals
    cases hstep
    try exact .inl rfl

end Runs

end Rustgo.ClientEnrollment
