import Rustgo.EnrollmentSteps

namespace Rustgo.ClientEnrollment

open Durable Contract
open Enrollment
open Protocol

/-- Not an answer of the server. -/
def EnrollmentError.IsLocal (error : EnrollmentError) : Prop := ∀ code, error ≠ .rejected code

def Op.replaces : Op → Bool
  | .file (.replaceKey _ _) => true
  | _ => false

/-- Every operation but the replacement of a key is under its guard when the files are these. -/
def Quiet (guard : Op → World → Prop) (b : World) (d : Disk) : Prop :=
  ∀ op v, op.replaces = false → Moved b d v → guard op v

/-- An operation may fail by itself when the files are these. -/
def Faulty (allowed : Op → Choice → World → Prop) (b : World) (d : Disk) : Prop :=
  ∃ op, Possible allowed b d op .fails

/-- Nothing fails by itself, and the server shows one certificate. -/
structure Smooth (allowed : Op → Choice → World → Prop) (certificate : Fingerprint) : Prop where
  steady : ∀ op w, ¬allowed op .fails w
  certificate : ∀ trust name address fingerprint w,
    allowed (.connect trust name address) (.certificate fingerprint) w → fingerprint = certificate

/-- What is drawn at random is new when the files are these. -/
def Fresh (allowed : Op → Choice → World → Prop) (b : World) (d : Disk) : Prop :=
  ∀ bytes, Possible allowed b d .randomRequestId (.random bytes) →
    requestIdOf bytes ∉ d.metadataTemps ∧ d.keyFiles (.candidate (requestIdOf bytes)) = none

variable {allowed : Op → Choice → World → Prop} {guard : Op → World → Prop} {b w : World} {d : Disk} {α : Type}
  {Q : α → World → Prop} {E : EnrollmentError → World → Prop} {keys : Keys} {m : PendingMetadata}

theorem Smooth.not_faulty {certificate : Fingerprint} (h : Smooth allowed certificate) : ¬Faulty allowed b d := fun ⟨op, v, _, hfails⟩ => h.steady op v hfails

theorem Possible.faulty {op : Op} (h : Possible allowed b d op .fails) : Faulty allowed b d := ⟨op, h⟩

/-- The metadata is valid and its key is there. -/
def Disk.Validates (keys : Keys) (d : Disk) (m : PendingMetadata) : Prop :=
  m.isValid (d.keyFiles m.finalPrivateKey).isSome = true ∧
    ∃ key, d.loadKey m.candidatePrivateKey = some key ∧ keys.publicKey key = m.publicKey

/-- What `load` makes of stored metadata. -/
def Disk.recovered (keys : Keys) (d : Disk) (m : PendingMetadata) : PendingMetadata :=
  recover keys m (d.keyFiles m.candidatePrivateKey).isSome (d.loadKey m.finalPrivateKey)

def Disk.Loads (keys : Keys) (d : Disk) (m : PendingMetadata) : Prop :=
  ∃ stored, d.metadata = some stored ∧ d.recovered keys stored = m ∧ d.Validates keys m

theorem Disk.Loads.unique {m' : PendingMetadata} (h : d.Loads keys m) (h' : d.Loads keys m') : m = m' := by
  obtain ⟨stored, hstored, rfl, -⟩ := h
  obtain ⟨stored', hstored', rfl, -⟩ := h'
  rw [Option.some.inj (hstored.symm.trans hstored')]

/-- A key that has to be there. -/
theorem wp_demandKey {path : KeyPath} {error : EnrollmentError} {next : PrivateKey → Action α} (hw : Moved b d w)
    (hguard : Quiet guard b d)
    (hsome : ∀ key v, d.loadKey path = some key → Moved b d v → (contract allowed guard).wp (next key) Q E v)
    (hnone : ∀ v, d.loadKey path = none ∨ Faulty allowed b d → Moved b d v → E error v) :
    (contract allowed guard).wp (Prog.perform (Op.loadPrivateFile path) >>= fun key => Prog.okOr key error >>= next) Q E w := by
  refine wp_loadPrivateFile hw (hguard _ · rfl) fun v key hv hkey => ?_
  refine wp_okOr (fun loaded hloaded => hsome loaded v ?_ hv) fun hnone' t ht => hnone t ?_ (hv.stay ht)
  · rcases hkey with rfl | ⟨rfl, -⟩
    · exact hloaded
    · cases hloaded
  · rcases hkey with rfl | ⟨-, hfails⟩
    · exact .inl hnone'
    · exact .inr hfails.faulty

theorem wp_validateMetadata {Q : Unit → World → Prop} (hw : Moved b d w) (hguard : Quiet guard b d)
    (hok : ∀ v, d.Validates keys m → Moved b d v → Q () v)
    (herror : ∀ v, (d.Validates keys m → Faulty allowed b d) → Moved b d v → E .invalidPendingState v) :
    (contract allowed guard).wp (validateMetadata keys m) Q E w := by
  rw [validateMetadata]
  refine wp_keyExists hw (hguard _ · rfl) fun v hv => wp_require (fun hvalid => ?_) fun hinvalid t ht => ?_
  · refine wp_demandKey hv hguard (fun key v hkey hv => wp_require_last (fun hpublic t ht => ?_) fun hpublic t ht => ?_) fun v hnone hv => ?_
    · exact hok t ⟨hvalid, key, hkey, hpublic⟩ (hv.stay ht)
    · refine herror t (fun ⟨_, key', hkey', hpublic'⟩ => absurd ?_ hpublic) (hv.stay ht)
      rwa [Option.some.inj (hkey.symm.trans hkey')]
    · refine herror v (fun ⟨_, key', hkey', _⟩ => hnone.resolve_left fun hkey => ?_) hv
      rw [hkey] at hkey'
      cases hkey'
  · exact herror t (fun hvalid => absurd hvalid.1 hinvalid) (hv.stay ht)

theorem recover_of_exists (keys : Keys) (m : PendingMetadata) (final : Option PrivateKey) : recover keys m true final = m :=
  if_neg fun h => Bool.noConfusion h.1

theorem recover_of_none (keys : Keys) (m : PendingMetadata) (candidateExists : Bool) : recover keys m candidateExists none = m :=
  if_neg fun h => Bool.noConfusion h.2

theorem Disk.loadKey_of_not_exists {path : KeyPath} (h : (d.keyFiles path).isSome = false) : d.loadKey path = none := by
  rw [Option.isSome_eq_false_iff, Option.isNone_iff_eq_none] at h
  rw [loadKey, h]

theorem wp_load {Q : PendingMetadata → World → Prop} (hw : Moved b d w) (hguard : Quiet guard b d)
    (hok : ∀ m v, d.Loads keys m → Moved b d v → Q m v)
    (herror : ∀ error v, error.IsLocal → ((∃ m, d.Loads keys m) → Faulty allowed b d) → Moved b d v → E error v) :
    (contract allowed guard).wp (load keys) Q E w := by
  rw [load]
  have hlocal : EnrollmentError.invalidPendingState.IsLocal := fun code => by simp
  refine wp_readMetadata hw (hguard _ · rfl) fun v read hv hread => wp_okOr (fun stored hstored => ?_) fun hnone t ht => ?_
  · have hmetadata : d.metadata = some stored := by
      rcases hread with rfl | ⟨rfl, -⟩
      · exact hstored
      · cases hstored
    have hvalidate : ∀ v m, Moved b d v → d.recovered keys stored = m ∨ Faulty allowed b d ∧ ¬d.Validates keys m →
        (contract allowed guard).wp (do validateMetadata keys m; pure m) Q E v := by
      intro v m hv hm
      refine wp_bind.mpr (wp_validateMetadata hv hguard (fun v hvalid hv t ht => ?_) fun v hinvalid hv => ?_)
      · rcases hm with hm | ⟨-, hm⟩
        · exact hok m t ⟨stored, hmetadata, hm, hvalid⟩ (hv.stay ht)
        · exact absurd hvalid hm
      · refine herror _ v hlocal (fun ⟨m', stored', hstored', hm', hvalid⟩ => ?_) hv
        obtain rfl := Option.some.inj (hmetadata.symm.trans hstored')
        rcases hm with rfl | ⟨hfaulty, -⟩
        · exact hinvalid (hm' ▸ hvalid)
        · exact hfaulty
    refine wp_keyExists hv (hguard _ · rfl) fun v hv => ?_
    cases hexists : (d.keyFiles stored.candidatePrivateKey).isSome with
    | true =>
        simp only [if_true, recover_of_exists]
        exact hvalidate v stored hv (.inl (by rw [Disk.recovered, hexists, recover_of_exists]))
    | false =>
        simp only [Bool.false_eq_true, if_false]
        refine wp_loadPrivateFile hv (hguard _ · rfl) fun v final hv hfinal => hvalidate v _ hv ?_
        rcases hfinal with rfl | ⟨rfl, hfails⟩
        · exact .inl (by rw [Disk.recovered, hexists])
        · rw [recover_of_none]
          refine .inr ⟨hfails.faulty, fun hvalid => ?_⟩
          obtain ⟨-, key, hkey, -⟩ := hvalid
          rw [Disk.loadKey_of_not_exists hexists] at hkey
          cases hkey
  · refine herror _ t (fun code => by simp) (fun ⟨m, stored, hstored, _⟩ => ?_) (hv.stay ht)
    rcases hread with rfl | ⟨-, hfails⟩
    · rw [hstored] at hnone
      cases hnone
    · exact hfails.faulty

section Write

/-- The files with a temporary metadata file. -/
def Disk.withTemp (d : Disk) (requestId : String) : Disk := { d with metadataTemps := requestId :: d.metadataTemps }

theorem wp_writeMetadata {Q : Unit → World → Prop} (hw : Moved b d w) (hguard : Quiet guard b d)
    (hguard' : Quiet guard b (d.withTemp m.requestId))
    (hok : ∀ v, m.requestId ∉ d.metadataTemps → Moved b { d with metadata := some m } v → Q () v)
    (herror : ∀ error v, error.IsLocal → (m.requestId ∉ d.metadataTemps → Faulty allowed b d) → Moved b d v → E error v)
    (herror' : ∀ error v, error.IsLocal → Faulty allowed b (d.withTemp m.requestId) → Moved b (d.withTemp m.requestId) v →
      E error v) :
    (contract allowed guard).wp (writeMetadata m) Q E w := by
  rw [writeMetadata]
  have hlocal : ∀ operation, (EnrollmentError.pendingIo operation).IsLocal := fun _ _ => by simp
  refine wp_bind.mpr (wp_file hw (hguard _ · rfl) (fun d' v hd hv => ?_) fun v hfails hv => ?_)
  · obtain rfl := Option.some.inj hd
    refine wp_bind.mpr (wp_file hv (hguard _ · rfl) (fun d' v hd hv => ?_) fun v hfails hv => ?_)
    · have hnew : m.requestId ∉ d.metadataTemps := fun hmem => by simp [FileOp.apply, hmem] at hd
      obtain rfl : d.withTemp m.requestId = d' := by simpa [FileOp.apply, hnew, Disk.withTemp] using hd
      refine wp_bind.mpr (wp_file hv (hguard' _ · rfl) (fun d' v hd hv => ?_) fun v hfails hv => ?_)
      · obtain rfl := Option.some.inj hd
        refine wp_file hv (hguard' _ · rfl) (fun d' v hd hv => ?_) fun v hfails hv => ?_
        · obtain rfl := Option.some.inj hd
          exact hok v hnew (by simpa [Disk.withTemp] using hv)
        · exact herror' _ v (hlocal _) (hfails.resolve_left (by simp [FileOp.apply])).faulty hv
      · exact herror' _ v (hlocal _) (hfails.resolve_left (by simp [FileOp.apply])).faulty hv
    · refine herror _ v (hlocal _) (fun hnew => (hfails.resolve_left ?_).faulty) hv
      simp [FileOp.apply, hnew]
  · exact herror _ v (hlocal _) (fun _ => (hfails.resolve_left (by simp [FileOp.apply])).faulty) hv

end Write

section Create

variable {key : EnrollmentKeyMaterial} {reuse : Bool}

/-- At most candidates and temporary files were added. -/
structure Disk.Scratch (d d' : Disk) : Prop where
  metadata : d'.metadata = d.metadata
  config : d'.config = d.config
  configTemp : d'.configTemp = d.configTemp
  keyFiles : ∀ path file, d.keyFiles path = some file → d'.keyFiles path = some file
  final : d'.keyFiles .final = d.keyFiles .final

theorem Disk.Scratch.refl (d : Disk) : d.Scratch d := ⟨rfl, rfl, rfl, fun _ _ h => h, rfl⟩

theorem Disk.Scratch.withTemp {d' : Disk} (h : d.Scratch d') (requestId : String) : d.Scratch (d'.withTemp requestId) :=
  ⟨h.metadata, h.config, h.configTemp, h.keyFiles, h.final⟩

theorem Disk.Scratch.setKey {requestId : String} {file : KeyFile} (h : d.keyFiles (.candidate requestId) = none) :
    d.Scratch (d.setKey (.candidate requestId) (some file)) := by
  refine ⟨rfl, rfl, rfl, fun path file' hpath => ?_, d.keyFiles_setKey_of_ne _ (by simp)⟩
  have hne : path ≠ .candidate requestId := fun heq => by
    rw [heq, h] at hpath
    cases hpath
  rw [d.keyFiles_setKey_of_ne _ hne, hpath]

/-- New metadata for the key in use, or for a new candidate. -/
inductive Created (keys : Keys) (d : Disk) (key : EnrollmentKeyMaterial) (reuse : Bool) : PendingMetadata → Disk → Prop
  | reused (existing bytes) (hreuse : reuse = true) (hkey : d.loadKey .final = some existing) :
      Created keys d key reuse (newMetadata key reuse (requestIdOf bytes) (keys.publicKey existing) .final true)
        { d with metadata := some (newMetadata key reuse (requestIdOf bytes) (keys.publicKey existing) .final true) }
  | generated (secret bytes) (hnew : d.keyFiles (.candidate (requestIdOf bytes)) = none) :
      Created keys d key reuse
        (newMetadata key reuse (requestIdOf bytes) (keys.publicKey secret) (.candidate (requestIdOf bytes)) false)
        { d.setKey (.candidate (requestIdOf bytes)) (some (.valid secret)) with
          metadata := some (newMetadata key reuse (requestIdOf bytes) (keys.publicKey secret) (.candidate (requestIdOf bytes)) false) }

/-- Whether new metadata is refused. -/
def Disk.Occupied (d : Disk) (key : EnrollmentKeyMaterial) (reuse : Bool) : Prop :=
  d.metadata.isSome = true ∨ (reuse = false ∧ key.purpose = .enroll ∧ (d.keyFiles .final).isSome = true)

theorem wp_createInner {Q : PendingMetadata → World → Prop} (hw : Moved b d w) (hguard : ∀ d', d.Scratch d' → Quiet guard b d')
    (hok : ∀ m d' v, ¬d.Occupied key reuse → m.requestId ∉ d'.metadataTemps → Created keys d key reuse m d' → Moved b d' v → Q m v)
    (herror : ∀ error d' v, error.IsLocal → d.Scratch d' → (¬d.Occupied key reuse → Fresh allowed b d → ∃ e, Faulty allowed b e) →
      Moved b d' v → E error v) :
    (contract allowed guard).wp (createInner keys key reuse) Q E w := by
  rw [createInner]
  have hlocal : ∀ operation, (EnrollmentError.pendingIo operation).IsLocal := fun _ _ => by simp
  have hself := hguard d (.refl d)
  refine wp_metadataExists hw (hself _ · rfl) fun v hv => wp_keyExists hv (hself _ · rfl) fun v hv => ?_
  refine wp_require (fun hfree => ?_) fun hoccupied t ht =>
    herror _ d t (fun code => by simp) (.refl d) (fun hfree => absurd hfree hoccupied) (hv.stay ht)
  have hfaulty : ∀ d', Faulty allowed b d' → ¬d.Occupied key reuse → Fresh allowed b d → ∃ e, Faulty allowed b e :=
    fun d' h _ _ => ⟨d', h⟩
  refine wp_randomRequestId hv (hself _ · rfl) (fun bytes v hrandom hv => ?_) fun v hfails hv => ?_
  · have hfresh : Fresh allowed b d → requestIdOf bytes ∉ d.metadataTemps ∧ d.keyFiles (.candidate (requestIdOf bytes)) = none :=
      fun hfresh => hfresh bytes hrandom
    have hwrite : ∀ m d' v, m.requestId = requestIdOf bytes → d.Scratch d' → d'.metadataTemps = d.metadataTemps → Moved b d' v →
        Created keys d key reuse m { d' with metadata := some m } →
        (contract allowed guard).wp (do writeMetadata m; pure m) Q E v := by
      intro m d' v hid hscratch htemps hv hcreated
      refine wp_bind.mpr (wp_writeMetadata hv (hguard d' hscratch) (hguard _ (hscratch.withTemp _)) (fun v hnew hv t ht => ?_)
        (fun error v hlocal hfaulty' hv => ?_) fun error v hlocal hfaulty' hv => ?_)
      · exact hok m { d' with metadata := some m } t hfree hnew hcreated (hv.stay ht)
      · refine herror error d' v hlocal hscratch (fun _ hnew => ⟨d', hfaulty' ?_⟩) hv
        rw [hid, htemps]
        exact (hfresh hnew).1
      · exact herror error _ v hlocal (hscratch.withTemp _) (hfaulty _ hfaulty') hv
    refine wp_okOr (fun id hid => ?_) fun hnone => by cases hnone
    obtain rfl := Option.some.inj hid
    refine wp_bind.mpr (wp_file hv (hself _ · rfl) (fun d' v hd hv => ?_) fun v hfails hv => ?_)
    · obtain rfl := Option.some.inj hd
      have hgenerate : ∀ v, Moved b d v → (contract allowed guard).wp (do
          let publicKey ← generateKeyFile keys (requestIdOf bytes)
          let m ← pure (newMetadata key reuse (requestIdOf bytes) publicKey (.candidate (requestIdOf bytes)) false)
          writeMetadata m
          pure m) Q E v := by
        intro v hv
        refine wp_bind.mpr ?_
        have hpending : EnrollmentError.invalidPendingState.IsLocal := fun code => by simp
        rw [generateKeyFile]
        refine wp_persistPrivateKey hv (hself _ · rfl) (fun secret v hnew hv => ?_) fun v hfails hv => ?_
        · have hscratch : d.Scratch (d.setKey (.candidate (requestIdOf bytes)) (some (.valid secret))) := .setKey hnew
          refine wp_okOr (fun a ha => ?_) fun hnone => by cases hnone
          obtain rfl := Option.some.inj ha
          refine wp_bind.mpr (wp_file hv (hguard _ hscratch _ · rfl) (fun d' v hd hv => ?_) fun v hfails hv => ?_)
          · obtain rfl := Option.some.inj hd
            intro t ht
            exact hwrite _ _ t rfl hscratch rfl (hv.stay ht) (.generated secret bytes hnew)
          · exact herror _ _ v hpending hscratch (hfaulty _ (hfails.resolve_left (by simp [FileOp.apply])).faulty) hv
        · refine wp_okOr (fun a ha => by cases ha) fun _ t ht => herror _ d t hpending (.refl d) (fun _ hnew => ⟨d, ?_⟩) (hv.stay ht)
          refine (hfails.resolve_left fun hsome => ?_).faulty
          rw [(hfresh hnew).2] at hsome
          cases hsome
      cases hreuse : reuse with
      | true =>
        subst hreuse
        simp only [if_true]
        refine wp_loadPrivateFile hv (hself _ · rfl) fun v existing hv hexisting => ?_
        cases existing with
        | none => exact hgenerate v hv
        | some existing =>
          rcases hexisting with hkey | ⟨hnone, -⟩
          · exact hwrite _ d v rfl (.refl d) rfl hv (.reused existing bytes rfl hkey.symm)
          · cases hnone
      | false =>
        subst hreuse
        exact hgenerate v hv
    · exact herror _ d v (hlocal _) (.refl d) (hfaulty d (hfails.resolve_left (by simp [FileOp.apply])).faulty) hv
  · exact fun t ht => herror _ d t (hlocal _) (.refl d) (hfaulty d hfails.faulty) (hv.stay ht)

end Create

section Bind

variable {config : ClientSection} {existed : Bool} {intent : RegistrationIntent}

/-- The stored intent stays, or the given one is stored. -/
inductive Binds (d : Disk) (m : PendingMetadata) (text : String) : PendingMetadata → String → Disk → Prop
  | kept (existing) (h : m.approvalIntent = some existing) : Binds d m text m existing d
  | stored (h : m.approvalIntent = none) :
      Binds d m text { m with approvalIntent := some text } text { d with metadata := some { m with approvalIntent := some text } }

theorem Binds.loadKey {m' : PendingMetadata} {text text' : String} {d' : Disk} (h : Binds d m text m' text' d') (path : KeyPath) :
    d'.loadKey path = d.loadKey path := by
  cases h <;> rfl

theorem wp_bindApprovalIntent {text : String} {Q : PendingMetadata × String → World → Prop} (hw : Moved b d w)
    (hguard : Quiet guard b d) (hguard' : m.approvalIntent = none → Quiet guard b (d.withTemp m.requestId))
    (hok : ∀ m' text' d' v, Binds d m text m' text' d' → Moved b d' v → Q (m', text') v)
    (herror : ∀ error v, error.IsLocal → m.approvalIntent = none → (m.requestId ∉ d.metadataTemps → Faulty allowed b d) →
      Moved b d v → E error v)
    (herror' : ∀ error v, error.IsLocal → m.approvalIntent = none → Faulty allowed b (d.withTemp m.requestId) →
      Moved b (d.withTemp m.requestId) v → E error v) :
    (contract allowed guard).wp (bindApprovalIntent m text) Q E w := by
  rw [bindApprovalIntent]
  cases hintent : m.approvalIntent with
  | some existing => exact fun t ht => hok m existing d t (.kept existing hintent) (hw.stay ht)
  | none =>
      refine wp_bind.mpr (wp_writeMetadata hw hguard (hguard' hintent) (fun v _ hv t ht => ?_) (fun error v hlocal hfaulty hv => ?_)
        fun error v hlocal hfaulty hv => ?_)
      · exact hok _ text _ t (.stored hintent) (hv.stay ht)
      · exact herror error v hlocal hintent hfaulty hv
      · exact herror' error v hlocal hintent hfaulty hv

/-- The intent that is bound unless one is stored already. -/
def chosenIntent (config : ClientSection) (existed : Bool) (m : PendingMetadata) (intent : RegistrationIntent) :
    Except EnrollmentError RegistrationIntent :=
  if existed = true ∧ m.requiresLegacyApprovalIntent = true then
    (RegistrationIntent.new config.name intent.purpose).mapError .ofKeyError
  else .ok intent

/-- An intent is stored, or one can be stored. -/
def Bindable (config : ClientSection) (d : Disk) (m : PendingMetadata) (existed : Bool) (intent : RegistrationIntent) : Prop :=
  (∃ text result, m.approvalIntent = some text ∧ RegistrationIntent.decode text = .ok result) ∨
    m.approvalIntent = none ∧ m.requestId ∉ d.metadataTemps ∧
      ∃ chosen result, chosenIntent config existed m intent = .ok chosen ∧ RegistrationIntent.decode chosen.encode = .ok result

theorem ofKeyError_isLocal (error : EnrollmentKeyError) : (EnrollmentError.ofKeyError error).IsLocal := fun code => by
  cases error <;> simp [EnrollmentError.ofKeyError]

theorem isLocal_of_mapError {β : Type} {value : Except EnrollmentKeyError β} {error : EnrollmentError}
    (h : value.mapError EnrollmentError.ofKeyError = .error error) : error.IsLocal := by
  cases value with
  | ok => cases h
  | error e =>
      obtain rfl := Except.error.inj h
      exact ofKeyError_isLocal e

theorem mapError_eq_ok {β : Type} {value : Except EnrollmentKeyError β} {result : β} :
    value.mapError EnrollmentError.ofKeyError = .ok result ↔ value = .ok result := by
  cases value <;> simp [Except.mapError]

theorem wp_bindIntent {Q : PendingMetadata × RegistrationIntent → World → Prop} (hw : Moved b d w)
    (hguard : Quiet guard b d) (hguard' : m.approvalIntent = none → Quiet guard b (d.withTemp m.requestId))
    (hok : ∀ chosen m' text result d' v, chosenIntent config existed m intent = .ok chosen → Binds d m chosen.encode m' text d' →
      RegistrationIntent.decode text = .ok result → Moved b d' v → Q (m', result) v)
    (herror : ∀ error v, error.IsLocal → (Bindable config d m existed intent → Faulty allowed b d) → Moved b d v → E error v)
    (hlate : ∀ error chosen m' text d' v, error.IsLocal → chosenIntent config existed m intent = .ok chosen →
      Binds d m chosen.encode m' text d' → ¬Bindable config d m existed intent → Moved b d' v → E error v)
    (herror' : ∀ error v, error.IsLocal → m.approvalIntent = none → Faulty allowed b (d.withTemp m.requestId) →
      Moved b (d.withTemp m.requestId) v → E error v) :
    (contract allowed guard).wp (bindIntent config existed m intent) Q E w := by
  rw [bindIntent]
  refine wp_ofExcept (fun chosen hchosen => ?_) fun error hfailed t ht => ?_
  · refine wp_bind.mpr (wp_bindApprovalIntent hw hguard hguard' (fun m' text d' v hbinds hv => ?_) (fun error v hlocal hnone hfaulty hv => ?_) herror')
    · refine wp_ofExcept (fun result hresult t ht => ?_) fun error hfailed t ht => ?_
      · exact hok chosen m' text result d' t hchosen hbinds (mapError_eq_ok.mp hresult) (hv.stay ht)
      · refine hlate error chosen m' text d' t (isLocal_of_mapError hfailed) hchosen hbinds (fun hbindable => ?_) (hv.stay ht)
        have hno : ∀ result, RegistrationIntent.decode text ≠ .ok result := fun result hresult => by
          simp [hresult, Except.mapError] at hfailed
        cases hbinds with
        | kept _ hexisting =>
            rcases hbindable with ⟨text', result, htext, hresult⟩ | ⟨hnone, -⟩
            · obtain rfl := Option.some.inj (hexisting.symm.trans htext)
              exact hno result hresult
            · rw [hexisting] at hnone
              cases hnone
        | stored hnone =>
            rcases hbindable with ⟨text', result, htext, -⟩ | ⟨-, -, chosen', result, hchosen', hresult⟩
            · rw [hnone] at htext
              cases htext
            · obtain rfl := Except.ok.inj (hchosen.symm.trans hchosen')
              exact hno result hresult
    · refine herror error v hlocal (fun hbindable => ?_) hv
      rcases hbindable with ⟨text, -, htext, -⟩ | ⟨-, hnew, -⟩
      · rw [hnone] at htext
        cases htext
      · exact hfaulty hnew
  · refine herror error t ?_ (fun hbindable => ?_) (hw.stay ht)
    · split at hfailed
      · exact isLocal_of_mapError hfailed
      · cases hfailed
    · rcases hbindable with ⟨text, -, htext, -⟩ | ⟨-, -, chosen, -, hchosen, -⟩
      · simp [PendingMetadata.requiresLegacyApprovalIntent, htext] at hfailed
      · exact nomatch hfailed.symm.trans hchosen

/-- The signed intent as it is sent. -/
def signedIntent (keys : Keys) (key : PrivateKey) (m : PendingMetadata) (intent : RegistrationIntent) : String :=
  { intent with signature := some (signApproval keys key m.requestId intent.encode) }.wireCredential

theorem wp_wireCredential {encodedKey : String} {Q : PendingMetadata × String → World → Prop} (hw : Moved b d w)
    (hguard : Quiet guard b d) (hguard' : m.approvalIntent = none → Quiet guard b (d.withTemp m.requestId))
    (hlater : ∀ chosen m' text d', chosenIntent config existed m intent = .ok chosen → Binds d m chosen.encode m' text d' →
      Quiet guard b d')
    (hok : ∀ chosen m' text result key d' v, chosenIntent config existed m intent = .ok chosen → Binds d m chosen.encode m' text d' →
      RegistrationIntent.decode text = .ok result → d.loadKey m'.candidatePrivateKey = some key → Moved b d' v →
      Q (m', signedIntent keys key m' result) v)
    (herror : ∀ error v, error.IsLocal → (Bindable config d m existed intent → Faulty allowed b d) → Moved b d v → E error v)
    (hlate : ∀ error chosen m' text d' v, error.IsLocal → chosenIntent config existed m intent = .ok chosen →
      Binds d m chosen.encode m' text d' →
      (Bindable config d m existed intent → (d.loadKey m.candidatePrivateKey).isSome = true → Faulty allowed b d') →
      Moved b d' v → E error v)
    (herror' : ∀ error v, error.IsLocal → m.approvalIntent = none → Faulty allowed b (d.withTemp m.requestId) →
      Moved b (d.withTemp m.requestId) v → E error v) :
    (contract allowed guard).wp (wireCredential keys config encodedKey existed m (.approval intent)) Q E w := by
  rw [wireCredential]
  refine wp_bind.mpr (wp_bindIntent hw hguard hguard' (fun chosen m' text result d' v hchosen hbinds hresult hv => ?_) herror
    (fun error chosen m' text d' v hlocal hchosen hbinds hno hv => ?_) herror')
  · have hload := hbinds.loadKey
    refine wp_demandKey hv (hlater chosen m' text d' hchosen hbinds) (fun key v hkey hv t ht => ?_) fun v hnone hv => ?_
    · exact hok chosen m' text result key d' t hchosen hbinds hresult (hload _ ▸ hkey) (hv.stay ht)
    · refine hlate _ chosen m' text d' v (fun code => by simp) hchosen hbinds (fun _ hkey => hnone.resolve_left ?_) hv
      have hcandidate : m'.candidatePrivateKey = m.candidatePrivateKey := by cases hbinds <;> rfl
      rw [hload, hcandidate]
      exact fun heq => by simp [heq] at hkey
  · exact hlate error chosen m' text d' v hlocal hchosen hbinds (fun h => absurd h hno) hv

end Bind

section Endpoint

variable {config : ClientSection}

/-- How the certificate is verified when there is no pending request. -/
inductive FirstTrust (config : ClientSection) : Trust → Prop
  | pinned (fingerprint) (hmode : config.trustMode = some .pinned) (h : configuredFingerprint config = some fingerprint) :
      FirstTrust config (.pinned fingerprint)
  | caFile (hmode : config.trustMode = none) : FirstTrust config .caFile
  | initialEnrollment (hmode : config.trustMode = none) : FirstTrust config .initialEnrollment

/-- The endpoint of an approval can be found. -/
def Reachable (keys : Keys) (config : ClientSection) (d : Disk) : Prop :=
  (∃ m fingerprint, d.Loads keys m ∧ m.serverAddr = config.serverAddr ∧ m.fingerprint = some fingerprint) ∨
    d.metadata = none ∧ (config.trustMode = some .pinned → (configuredFingerprint config).isSome = true)

theorem wp_approvalEndpoint {Q : Endpoint → World → Prop} (hw : Moved b d w) (hguard : Quiet guard b d)
    (hpending : ∀ m fingerprint v, d.Loads keys m → m.serverAddr = config.serverAddr → m.fingerprint = some fingerprint →
      Moved b d v → Q ⟨.pinned fingerprint, config.serverName, config.serverAddr⟩ v)
    (hfirst : ∀ trust v, d.metadata = none → FirstTrust config trust → Moved b d v →
      Q ⟨trust, config.serverName, config.serverAddr⟩ v)
    (herror : ∀ error v, error.IsLocal → (Reachable keys config d → Faulty allowed b d) → Moved b d v → E error v) :
    (contract allowed guard).wp (approvalEndpoint keys config) Q E w := by
  rw [approvalEndpoint]
  have hpendingState : EnrollmentError.invalidPendingState.IsLocal := fun code => by simp
  have hcertificate : EnrollmentError.localCertificate.IsLocal := fun code => by simp
  refine wp_metadataExists hw (hguard _ · rfl) fun v hv => ?_
  cases hexists : d.metadata.isSome with
  | true =>
      have hnone : d.metadata ≠ none := fun heq => by simp [heq] at hexists
      simp only [if_true]
      refine wp_bind.mpr (wp_load hv hguard (fun m v hloads hv => ?_) fun error v hlocal hfaulty hv => ?_)
      · have hunique : ∀ {P : PendingMetadata → Prop}, Reachable keys config d →
            (∀ m fingerprint, d.Loads keys m → m.serverAddr = config.serverAddr → m.fingerprint = some fingerprint → P m) → P m := by
          rintro P (⟨m', fingerprint, hloads', haddr, hfingerprint⟩ | ⟨hno, -⟩) hP
          · rw [hloads.unique hloads']
            exact hP m' fingerprint hloads' haddr hfingerprint
          · exact absurd hno hnone
        refine wp_require (fun haddr => ?_) fun haddr t ht =>
          herror _ t hpendingState (fun hreach => absurd (hunique hreach fun _ _ _ h _ => h) haddr) (hv.stay ht)
        refine wp_okOr (fun fingerprint hfingerprint => ?_) fun hnone t ht =>
          herror _ t hpendingState (fun hreach => absurd hnone (hunique (P := fun m => m.fingerprint ≠ none) hreach
            fun _ _ _ _ h => by simp [h])) (hv.stay ht)
        refine wp_openTls hv (hguard _ · rfl) (fun v hv => ?_) fun v hfails hv => ?_
        · exact fun t ht => hpending m fingerprint t hloads haddr hfingerprint (hv.stay ht)
        · exact fun t ht => herror _ t hcertificate (fun _ => hfails.faulty) (hv.stay ht)
      · refine herror error v hlocal (fun hreach => hfaulty ?_) hv
        rcases hreach with ⟨m, _, hloads, -⟩ | ⟨hno, -⟩
        · exact ⟨m, hloads⟩
        · exact absurd hno hnone
  | false =>
      have hnone : d.metadata = none := by simpa using hexists
      simp only [Bool.false_eq_true, if_false]
      have hopen : ∀ trust v, FirstTrust config trust → Moved b d v →
          (contract allowed guard).wp (do
            Prog.okOr (← Prog.perform (.openTls trust config.serverName)) EnrollmentError.localCertificate
            pure (⟨trust, config.serverName, config.serverAddr⟩ : Endpoint)) Q E v := by
        intro trust v htrust hv
        refine wp_openTls hv (hguard _ · rfl) (fun v hv => ?_) fun v hfails hv => ?_
        · exact fun t ht => hfirst trust t hnone htrust (hv.stay ht)
        · exact fun t ht => herror _ t hcertificate (fun _ => hfails.faulty) (hv.stay ht)
      cases hmode : config.trustMode with
      | some mode =>
          refine wp_okOr (fun fingerprint hfingerprint => ?_) fun hno t ht => herror _ t hpendingState (fun hreach => ?_) (hv.stay ht)
          · exact hopen _ v (.pinned fingerprint hmode hfingerprint) hv
          · rcases hreach with ⟨m, _, ⟨stored, hstored, -⟩, -⟩ | ⟨-, hpinned⟩
            · rw [hnone] at hstored
              cases hstored
            · simp [hno] at hpinned
              exact absurd hmode hpinned
      | none =>
          refine wp_certificateAuthorityExists hv (hguard _ · rfl) (fun v exist hv => ?_) fun v hfails hv => ?_
          · cases exist with
            | true => exact hopen _ v (.caFile hmode) hv
            | false => exact hopen _ v (.initialEnrollment hmode) hv
          · exact fun t ht => herror _ t hcertificate (fun _ => hfails.faulty) (hv.stay ht)

/-- The configuration changes at most in its profile, and only if no request is stored. -/
theorem wp_sessionConfig {Q : ClientSection → World → Prop} (hw : Moved b d w) (hguard : Quiet guard b d)
    (hok : ∀ config' v, config' = config ∨ d.metadata = none ∧ (∃ profile,
      Possible allowed b d (.authenticate config) (.authenticated (some profile)) ∧ config' = { config with profile := some profile }) →
      Moved b d v → Q config' v)
    (herror : ∀ error v, error.IsLocal → d.metadata = none → Faulty allowed b d → Moved b d v → E error v) :
    (contract allowed guard).wp (sessionConfig config) Q E w := by
  rw [sessionConfig]
  refine wp_metadataExists hw (hguard _ · rfl) fun v hv => ?_
  split
  · next hfirst =>
    have hnone : d.metadata = none := by simpa using hfirst.2
    refine wp_controlClient hv (hguard _ · rfl) (fun v hv => ?_) fun v hfails hv t ht =>
      herror _ t (fun code => by simp) hnone hfails.faulty (hv.stay ht)
    refine wp_authenticate hv (hguard _ · rfl) (fun v profile hprofile hv t ht => ?_) fun v hfails hv t ht =>
      herror _ t (fun code => by simp) hnone hfails.faulty (hv.stay ht)
    cases profile with
    | none => exact hok config t (.inl rfl) (hv.stay ht)
    | some profile => exact hok _ t (.inr ⟨hnone, profile, hprofile, rfl⟩) (hv.stay ht)
  · exact fun t ht => hok config t (.inl rfl) (hv.stay ht)

end Endpoint

section Submit

theorem Moved.delivered {v u : World} {request : EnrollmentRequest} {verdict : Verdict} (hv : Moved b d v)
    (hu : Moved (v.deliver request verdict) (v.deliver request verdict).disk u) : Moved (v.deliver request verdict) d u :=
  ⟨hu.disk.trans hv.disk, hu.sent, hu.server⟩

theorem wp_submit {request : EnrollmentRequest} {Q : EnrollmentCompletion → World → Prop} (hw : Moved b d w)
    (hguard : Quiet guard b d)
    (hunsent : ∀ v, Possible allowed b d (.send request) .unsent → Moved b d v → E .network v)
    (hlost : ∀ v verdict u, Moved b d v → allowed (.send request) (.answered verdict false) v →
      Moved (v.deliver request verdict) d u → E .network u)
    (hrejected : ∀ v verdict code u, Moved b d v → allowed (.send request) (.answered verdict true) v →
      (v.server.receive (registration request) verdict).2 = .rejected code → Moved (v.deliver request verdict) d u →
      E (.rejected code) u)
    (haccepted : ∀ v verdict completion u, Moved b d v → allowed (.send request) (.answered verdict true) v →
      (v.server.receive (registration request) verdict).2 = .accepted completion → Moved (v.deliver request verdict) d u →
      Q completion u) :
    (contract allowed guard).wp (submit request) Q E w := by
  rw [submit]
  refine wp_send hw (hguard _ · rfl) (fun v hpossible hv t ht => hunsent t hpossible (hv.stay ht))
    fun v verdict delivered hallowed hv => ?_
  cases delivered with
  | false => exact fun t ht => hlost v verdict t hv hallowed (hv.delivered ht)
  | true =>
      simp only [if_true]
      cases hreply : (v.server.receive (registration request) verdict).2 with
      | lost => exact fun t ht => absurd hreply (by cases verdict <;> simp [Server.receive]; split <;> simp)
      | rejected code => exact fun t ht => hrejected v verdict code t hv hallowed hreply (hv.delivered ht)
      | accepted completion => exact fun t ht => haccepted v verdict completion t hv hallowed hreply (hv.delivered ht)

end Submit

section Finish

variable {config : ClientSection} {key : EnrollmentKeyMaterial} {clientId : String}

theorem wp_updateConfig {Q : Unit → World → Prop} (hw : Moved b d w) (hguard : Quiet guard b d)
    (hguard' : Quiet guard b { d with configTemp := true })
    (hok : ∀ v, d.configTemp = false →
      Moved b { d with config := updatedConfig config d.config key clientId, configTemp := false } v → Q () v)
    (herror : ∀ error v, error.IsLocal → (d.configTemp = false → Faulty allowed b d) → Moved b d v → E error v)
    (herror' : ∀ error v, error.IsLocal → Faulty allowed b { d with configTemp := true } →
      Moved b { d with configTemp := true } v → E error v) :
    (contract allowed guard).wp (updateConfig config key clientId) Q E w := by
  rw [updateConfig]
  have hlocal : EnrollmentError.configurationIo.IsLocal := fun code => by simp
  refine wp_readConfig hw (hguard _ · rfl) fun v contents hv hcontents => ?_
  refine wp_okOr (fun read hread => ?_) fun hnone t ht => herror _ t hlocal (fun _ => ?_) (hv.stay ht)
  · obtain rfl : d.config = read := by
      rcases hcontents with rfl | ⟨rfl, -⟩
      · exact Option.some.inj hread
      · cases hread
    refine wp_bind.mpr (wp_file hv (hguard _ · rfl) (fun d' v hd hv => ?_) fun v hfails hv => ?_)
    · have hno : d.configTemp = false := by
        cases htemp : d.configTemp with
        | false => rfl
        | true => simp [FileOp.apply, htemp] at hd
      obtain rfl : { d with configTemp := true } = d' := by simpa [FileOp.apply, hno] using hd
      refine wp_bind.mpr (wp_file hv (hguard' _ · rfl) (fun d' v hd hv => ?_) fun v hfails hv => ?_)
      · obtain rfl := Option.some.inj hd
        refine wp_file hv (hguard' _ · rfl) (fun d' v hd hv => ?_) fun v hfails hv => ?_
        · obtain rfl := Option.some.inj hd
          exact hok v hno hv
        · exact herror' _ v hlocal (hfails.resolve_left (by simp [FileOp.apply])).faulty hv
      · exact herror' _ v hlocal (hfails.resolve_left (by simp [FileOp.apply])).faulty hv
    · refine herror _ v hlocal (fun hno => (hfails.resolve_left ?_).faulty) hv
      simp [FileOp.apply, hno]
  · rcases hcontents with rfl | ⟨-, hfails⟩
    · cases hnone
    · exact hfails.faulty

/-- The files once the candidate is in the place of the key. -/
def Disk.promoted (d : Disk) (m : PendingMetadata) : Disk :=
  if m.reuseExisting = true then d
  else (d.setKey m.candidatePrivateKey none).setKey m.finalPrivateKey (d.keyFiles m.candidatePrivateKey)

theorem Disk.Validates.candidate (h : d.Validates keys m) :
    ∃ key, d.keyFiles m.candidatePrivateKey = some (.valid key) ∧ keys.publicKey key = m.publicKey := by
  obtain ⟨-, key, hload, hpublic⟩ := h
  rw [Disk.loadKey] at hload
  split at hload
  · next heq =>
    obtain rfl := Option.some.inj hload
    exact ⟨_, heq, hpublic⟩
  · cases hload

@[simp] theorem Disk.metadata_promoted (d : Disk) (m : PendingMetadata) : (d.promoted m).metadata = d.metadata := by
  rw [promoted]
  split <;> rfl

/-- Valid metadata of a candidate may replace the key. -/
theorem Disk.Validates.replaceable (h : d.Validates keys m) (hreuse : m.reuseExisting = false) :
    ¬((d.keyFiles m.finalPrivateKey).isSome = true ∧ m.allowReplace = false ∧ m.purpose ≠ .reEnroll) := by
  rintro ⟨hfinal, hallow, hpurpose⟩
  obtain ⟨hvalid, -⟩ := h
  simp only [PendingMetadata.isValid, hfinal, hallow, hreuse, decide_eq_true_eq] at hvalid
  obtain ⟨-, -, hkind, -, -, -, -, -, hno, -⟩ := hvalid
  rcases hkind with hkind | hkind
  · exact hno (by simp [hkind])
  · exact hpurpose (if_pos hkind)

theorem wp_promote {Q : Unit → World → Prop} (hw : Moved b d w) (hguard : Quiet guard b d)
    (hreplace : d.Validates keys m → m.reuseExisting = false → ∀ v, Moved b d v →
      guard (.file (.replaceKey m.candidatePrivateKey m.finalPrivateKey)) v)
    (hguard' : d.Validates keys m → Quiet guard b (d.promoted m))
    (hok : ∀ v, d.Validates keys m → Moved b { d.promoted m with metadata := none } v → Q () v)
    (herror : ∀ error v, error.IsLocal → (d.Validates keys m → d.metadata.isSome = true → Faulty allowed b d) → Moved b d v → E error v)
    (herror' : ∀ error v, error.IsLocal → d.Validates keys m → (d.metadata.isSome = true → Faulty allowed b (d.promoted m)) →
      Moved b (d.promoted m) v → E error v) :
    (contract allowed guard).wp (promote keys m) Q E w := by
  rw [promote]
  have hlocal : ∀ operation, (EnrollmentError.pendingIo operation).IsLocal := fun _ _ => by simp
  refine wp_bind.mpr (wp_validateMetadata hw hguard (fun v hvalid hv => ?_)
    fun v hinvalid hv => herror _ v (fun code => by simp) (fun h _ => hinvalid h) hv)
  have hremove : ∀ v, Moved b (d.promoted m) v →
      (contract allowed guard).wp (file .removeMetadata (.pendingIo "remove metadata")) Q E v := by
    intro v hv
    refine wp_file hv (hguard' hvalid _ · rfl) (fun d' v hd hv => ?_) fun v hfails hv => ?_
    · simp only [FileOp.apply, Disk.metadata_promoted] at hd
      split at hd
      · obtain rfl := Option.some.inj hd
        exact hok v hvalid hv
      · cases hd
    · refine herror' _ v (hlocal _) hvalid (fun hsome => (hfails.resolve_left ?_).faulty) hv
      simp [FileOp.apply, Disk.metadata_promoted, hsome]
  cases hreuse : m.reuseExisting with
  | true =>
      have hpromoted : d.promoted m = d := if_pos hreuse
      exact hremove v (hpromoted.symm ▸ hv)
  | false =>
      simp only [Bool.false_eq_true, if_false]
      obtain ⟨key, hcandidate, -⟩ := hvalid.candidate
      have hpromoted : d.promoted m =
          (d.setKey m.candidatePrivateKey none).setKey m.finalPrivateKey (some (.valid key)) := by
        rw [Disk.promoted, hreuse, if_neg Bool.false_ne_true, hcandidate]
      refine wp_keyExists hv (hguard _ · rfl) fun v hv => ?_
      refine wp_require (fun _ => ?_) fun hrefused t ht => herror _ t (fun code => by simp) (fun _ _ => absurd ?_ hrefused) (hv.stay ht)
      · refine wp_bind.mpr (wp_file hv (fun v hv => hreplace hvalid hreuse v hv) (fun d' v hd hv => ?_) fun v hfails hv => ?_)
        · have hd' : d.promoted m = d' := by simpa [FileOp.apply, hcandidate, hpromoted] using hd
          exact hremove v (hd' ▸ hv)
        · refine herror _ v (hlocal _) (fun _ _ => (hfails.resolve_left ?_).faulty) hv
          simp [FileOp.apply, hcandidate]
      · exact hvalid.replaceable hreuse

end Finish

end Rustgo.ClientEnrollment
