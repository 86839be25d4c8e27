import Rustgo.EnrollmentKeys

namespace Rustgo.Enrollment

open Checks Numerals TextParts
open Managed (isWhitespace)
open Postcard.Format (decodeUtf8 utf8)
open Protocol (toVector)

structure RegistrationIntent where
  clientName : String
  uid : Option String
  profile : Bool
  purpose : EnrollmentPurpose
  signature : Option (Vector UInt8 64)
  deriving DecidableEq

namespace RegistrationIntent

def isNameChar (c : Char) : Bool := c.isAlphanum || c == '.' || c == '_' || c == '-'

def new (clientName : String) (purpose : EnrollmentPurpose) : Except EnrollmentKeyError RegistrationIntent := do
  require (¬(clientName = "" ∨ 64 < clientName.utf8ByteSize ∨ ¬clientName.toList.all isNameChar = true)) .invalidFormat
  pure ⟨clientName, none, false, purpose, none⟩

def forProfile (displayName : String) (uid : Option String) (purpose : EnrollmentPurpose) :
    Except EnrollmentKeyError RegistrationIntent := do
  require (¬(trim displayName = "" ∨ 128 < displayName.utf8ByteSize ∨ displayName.toList.any isControl = true)) .invalidFormat
  match uid with
  | some uid => let _ ← new uid purpose
  | none => pure ()
  pure ⟨displayName, uid, true, purpose, none⟩

def v1Prefix : List Char := "rustgo-approval-v1.".toList

def v2Prefix : List Char := "rustgo-approval-v2.".toList

def kind : EnrollmentPurpose → List Char
  | .enroll => "enroll".toList
  | .reEnroll => "reenroll".toList

def encode (intent : RegistrationIntent) : String :=
  String.ofList (
    if intent.profile then
      v2Prefix ++ (kind intent.purpose ++ '.' :: (Base64.encode Base64.urlSafe (utf8 intent.clientName) ++
        '.' :: (intent.uid.getD "").toList))
    else v1Prefix ++ (kind intent.purpose ++ '.' :: intent.clientName.toList))

def purposeOfKind (text : List Char) : Except EnrollmentKeyError EnrollmentPurpose :=
  if text = kind .enroll then .ok .enroll
  else if text = kind .reEnroll then .ok .reEnroll
  else .error .invalidPurpose

def decodeSignature (proof : List Char) : Except EnrollmentKeyError (Vector UInt8 64) := do
  require ((String.ofList proof).utf8ByteSize = 128 ∧ proof.all (isDigit 16) = true) .invalidFormat
  let bytes ← okOr (parseHex proof) .invalidFormat
  okOr (toVector 64 bytes) .invalidFormat

/-- The part of a profile's intent behind the purpose. -/
def decodeProfile (text : List Char) (purpose : EnrollmentPurpose) : Except EnrollmentKeyError RegistrationIntent := do
  let (name, uid) ← okOr (splitOnce '.' text) .invalidFormat
  let bytes ← okOr (Base64.decode Base64.urlSafe name) .invalidFormat
  let name ← okOr (decodeUtf8 bytes) .invalidFormat
  forProfile name (if uid = [] then none else some (String.ofList uid)) purpose

/-- An intent without the signature behind it. -/
def decodeIntent (encoded : List Char) : Except EnrollmentKeyError RegistrationIntent := do
  let profile := v2Prefix.isPrefixOf encoded
  let (purpose, name) ← okOr ((stripPrefix (if profile then v2Prefix else v1Prefix) encoded).bind (splitOnce '.')) .invalidFormat
  let purpose ← purposeOfKind purpose
  if profile then decodeProfile name purpose else new (String.ofList name) purpose

def decode (encoded : String) : Except EnrollmentKeyError RegistrationIntent := do
  require (¬EnrollmentKeyMaterial.maxEncodedBytes < encoded.utf8ByteSize) .invalidFormat
  match splitOnce ':' encoded.toList with
  | some (intent, proof) => do
      let signature ← decodeSignature proof
      let result ← decodeIntent intent
      pure { result with signature := some signature }
  | none => do
      let result ← decodeIntent encoded.toList
      pure { result with signature := none }

/-- The credential on the wire. -/
def wireCredential (intent : RegistrationIntent) : String :=
  match intent.signature with
  | some signature => String.ofList (intent.encode.toList ++ ':' :: hexBytes signature.toList)
  | none => intent.encode

section Built

variable {intent : RegistrationIntent} {name : String} {uid : Option String} {purpose : EnrollmentPurpose}

/-- The intents that the two constructors make. -/
inductive Built (intent : RegistrationIntent) : Prop
  | client (name : String) (purpose : EnrollmentPurpose) (h : new name purpose = .ok intent)
  | profile (name : String) (uid : Option String) (purpose : EnrollmentPurpose) (h : forProfile name uid purpose = .ok intent)

def IsName (name : String) : Prop := name ≠ "" ∧ name.utf8ByteSize ≤ 64 ∧ name.toList.all isNameChar = true

theorem new_eq_ok : new name purpose = .ok intent ↔ IsName name ∧ ⟨name, none, false, purpose, none⟩ = intent := by
  simp only [new, IsName, bind_eq_ok, require_eq_ok, pure_eq_ok, not_or, Nat.not_lt, not_not, exists_const, ne_eq]

theorem forProfile_eq_ok : forProfile name uid purpose = .ok intent ↔
    (trim name ≠ "" ∧ name.utf8ByteSize ≤ 128 ∧ name.toList.any isControl ≠ true) ∧ (∀ u ∈ uid, IsName u) ∧
      ⟨name, uid, true, purpose, none⟩ = intent := by
  cases uid with
  | none =>
      simp only [forProfile, bind_eq_ok, require_eq_ok, pure_eq_ok, not_or, Nat.not_lt, exists_const, ne_eq,
        Option.mem_def, reduceCtorEq, false_implies, implies_true, true_and]
  | some u =>
      simp only [forProfile, bind_eq_ok, require_eq_ok, pure_eq_ok, not_or, Nat.not_lt, exists_const, ne_eq,
        Option.mem_def, Option.some.injEq, forall_eq', new_eq_ok]
      constructor
      · rintro ⟨hname, _, ⟨hu, rfl⟩, hintent⟩
        exact ⟨hname, hu, hintent⟩
      · rintro ⟨hname, hu, hintent⟩
        exact ⟨hname, _, ⟨hu, rfl⟩, hintent⟩

theorem kind_injective {a b : EnrollmentPurpose} (h : kind a = kind b) : a = b := by
  cases a <;> cases b <;> first | rfl | exact absurd h (by decide)

theorem purposeOfKind_eq_ok {text : List Char} : purposeOfKind text = .ok purpose ↔ text = kind purpose := by
  rw [purposeOfKind]
  split
  · next henroll =>
    subst henroll
    exact ⟨fun h => congrArg kind (Except.ok.inj h), fun h => congrArg Except.ok (kind_injective h)⟩
  · next henroll =>
    split
    · next hreEnroll =>
      subst hreEnroll
      exact ⟨fun h => congrArg kind (Except.ok.inj h), fun h => congrArg Except.ok (kind_injective h)⟩
    · next hreEnroll =>
      refine ⟨fun h => absurd h (by simp), fun h => ?_⟩
      cases purpose with
      | enroll => exact absurd h henroll
      | reEnroll => exact absurd h hreEnroll

theorem dot_not_mem_kind (purpose : EnrollmentPurpose) : '.' ∉ kind purpose := by
  cases purpose <;> decide

theorem dot_not_mem_base64 (bytes : Bytes) : '.' ∉ Base64.encode Base64.urlSafe bytes := fun hmem => by
  have hno : '.' ∉ Base64.urlSafe.chars := by decide
  exact hno (Base64.mem_of_mem_encode _ hmem)

theorem toList_encode_client (name : String) (purpose : EnrollmentPurpose) (signature : Option (Vector UInt8 64)) :
    (encode ⟨name, none, false, purpose, signature⟩).toList = v1Prefix ++ (kind purpose ++ '.' :: name.toList) :=
  String.toList_ofList

theorem toList_encode_profile (name : String) (uid : Option String) (purpose : EnrollmentPurpose)
    (signature : Option (Vector UInt8 64)) : (encode ⟨name, uid, true, purpose, signature⟩).toList =
      v2Prefix ++ (kind purpose ++ '.' :: (Base64.encode Base64.urlSafe (utf8 name) ++ '.' :: (uid.getD "").toList)) :=
  String.toList_ofList

theorem decodeProfile_encode (hname : forProfile name uid purpose = .ok intent) :
    decodeProfile (Base64.encode Base64.urlSafe (utf8 name) ++ '.' :: (uid.getD "").toList) purpose = .ok intent := by
  have huid : (if (uid.getD "").toList = [] then none else some (String.ofList (uid.getD "").toList)) = uid := by
    cases uid with
    | none => rfl
    | some u =>
        have hu : u ≠ "" := ((forProfile_eq_ok.mp hname).2.1 u rfl).1
        rw [Option.getD_some, if_neg fun hnil => hu (String.toList_eq_nil_iff.mp hnil), String.ofList_toList]
  simp only [decodeProfile, splitOnce_append (dot_not_mem_base64 _), Base64.decode_encode,
    Postcard.Format.decodeUtf8_utf8, okOr, ok_bind, huid, hname]

/-- An intent is read as the one that was written, whatever its name looks like. -/
theorem decodeIntent_encode (h : Built intent) : decodeIntent intent.encode.toList = .ok intent := by
  cases h with
  | client name purpose h =>
      obtain ⟨-, rfl⟩ := new_eq_ok.mp h
      have hversion : v2Prefix.isPrefixOf (v1Prefix ++ (kind purpose ++ '.' :: name.toList)) = false := rfl
      rw [toList_encode_client, decodeIntent, hversion, if_neg Bool.false_ne_true, stripPrefix_append, Option.bind_some,
        splitOnce_append (dot_not_mem_kind purpose)]
      simp only [okOr, ok_bind, purposeOfKind_eq_ok.mpr rfl, String.ofList_toList, h, Bool.false_eq_true, if_false]
  | profile name uid purpose h =>
      obtain ⟨-, -, rfl⟩ := forProfile_eq_ok.mp h
      have hversion : v2Prefix.isPrefixOf (v2Prefix ++ (kind purpose ++ '.' ::
          (Base64.encode Base64.urlSafe (utf8 name) ++ '.' :: (uid.getD "").toList))) = true :=
        List.isPrefixOf_iff_prefix.mpr (List.prefix_append _ _)
      rw [toList_encode_profile, decodeIntent, hversion, if_pos rfl, stripPrefix_append, Option.bind_some,
        splitOnce_append (dot_not_mem_kind purpose)]
      simp only [okOr, ok_bind, purposeOfKind_eq_ok.mpr rfl, if_true, decodeProfile_encode h]

/-- Whatever is read was written so, and by a constructor. -/
theorem encode_of_decodeIntent {text : List Char} (h : decodeIntent text = .ok intent) :
    Built intent ∧ intent.encode.toList = text := by
  simp only [decodeIntent, bind_eq_ok, okOr_eq_ok, Prod.exists, Option.bind_eq_some_iff, purposeOfKind_eq_ok] at h
  obtain ⟨kindText, name, ⟨rest, hrest, hsplit⟩, purpose, rfl, h⟩ := h
  obtain ⟨rfl, -⟩ := splitOnce_eq_some.mp hsplit
  have htext := stripPrefix_eq_some.mp hrest
  cases hversion : v2Prefix.isPrefixOf text with
  | false =>
      rw [hversion, if_neg Bool.false_ne_true] at h htext
      refine ⟨.client _ _ h, ?_⟩
      obtain ⟨-, rfl⟩ := new_eq_ok.mp h
      rw [toList_encode_client, String.toList_ofList, htext]
  | true =>
      rw [hversion, if_pos rfl] at h htext
      simp only [decodeProfile, bind_eq_ok, okOr_eq_ok, Prod.exists] at h
      obtain ⟨encoded, uid, hparts, bytes, hbytes, name, hname, h⟩ := h
      refine ⟨.profile _ _ _ h, ?_⟩
      obtain ⟨rfl, -⟩ := splitOnce_eq_some.mp hparts
      obtain ⟨-, -, rfl⟩ := forProfile_eq_ok.mp h
      have huid : ((if uid = [] then none else some (String.ofList uid)).getD "").toList = uid := by
        split
        · next hnil => rw [hnil]; rfl
        · exact String.toList_ofList
      rw [toList_encode_profile, Postcard.Format.utf8_of_decodeUtf8 hname, Base64.encode_of_decode _ hbytes, huid, htext]

theorem colon_not_mem_encode (h : Built intent) : ':' ∉ intent.encode.toList := by
  have hkind : ∀ purpose, ':' ∉ kind purpose := fun purpose => by cases purpose <;> decide
  have hv1 : ':' ∉ v1Prefix := by decide
  have hv2 : ':' ∉ v2Prefix := by decide
  have halphabet : ':' ∉ Base64.urlSafe.chars := by decide
  have hname : ∀ name, IsName name → ':' ∉ name.toList := fun name hname hmem =>
    absurd (List.all_eq_true.mp hname.2.2 _ hmem) (by decide)
  cases h with
  | client name purpose h =>
      obtain ⟨hclient, rfl⟩ := new_eq_ok.mp h
      rw [toList_encode_client]
      simp only [List.mem_append, List.mem_cons, not_or]
      exact ⟨hv1, hkind purpose, by decide, hname name hclient⟩
  | profile name uid purpose h =>
      obtain ⟨-, huid, rfl⟩ := forProfile_eq_ok.mp h
      have huid' : ':' ∉ (uid.getD "").toList := by
        cases uid with
        | none => exact List.not_mem_nil
        | some u => exact hname u (huid u rfl)
      rw [toList_encode_profile]
      simp only [List.mem_append, List.mem_cons, not_or]
      exact ⟨hv2, hkind purpose, by decide, fun hmem => halphabet (Base64.mem_of_mem_encode _ hmem), by decide, huid'⟩

/-- The longest intent has 264 bytes. -/
theorem utf8ByteSize_encode_le (h : Built intent) : intent.encode.utf8ByteSize ≤ 264 := by
  have hkind : ∀ purpose, String.utf8Len (kind purpose) ≤ 8 := fun purpose => by cases purpose <;> decide
  have hv1 : String.utf8Len v1Prefix = 19 := by decide
  have hv2 : String.utf8Len v2Prefix = 19 := by decide
  have hdot : Char.utf8Size '.' = 1 := by decide
  have hsize : ∀ s : String, String.utf8Len s.toList = s.utf8ByteSize := fun s => by
    rw [← String.utf8ByteSize_ofList, String.ofList_toList]
  rw [← hsize]
  cases h with
  | client name purpose h =>
      obtain ⟨hname, rfl⟩ := new_eq_ok.mp h
      have hpurpose := hkind purpose
      have hlen := hname.2.1
      rw [toList_encode_client, String.utf8Len_append, String.utf8Len_append, String.utf8Len_cons, hsize, hv1, hdot]
      omega
  | profile name uid purpose h =>
      obtain ⟨hname, huid, rfl⟩ := forProfile_eq_ok.mp h
      have hpurpose := hkind purpose
      have hlen := hname.2.1
      have huid' : (uid.getD "").utf8ByteSize ≤ 64 := by
        cases uid with
        | none => decide
        | some u => exact (huid u rfl).2.1
      have hbase64 : String.utf8Len (Base64.encode Base64.urlSafe (utf8 name)) = (4 * name.utf8ByteSize + 2) / 3 := by
        have halphabet : ∀ c ∈ Base64.urlSafe.chars, isAscii c = true := List.all_iff_forall_prop.mp (by decide)
        rw [← String.utf8ByteSize_ofList, EnrollmentKeyMaterial.utf8ByteSize_ascii fun c hc =>
          halphabet c (Base64.mem_of_mem_encode _ hc), Base64.length_encode, EnrollmentKeyMaterial.length_utf8]
      rw [toList_encode_profile, String.utf8Len_append, String.utf8Len_append, String.utf8Len_cons, String.utf8Len_append,
        String.utf8Len_cons, hsize, hbase64, hv2, hdot]
      omega

end Built

section Signed

variable {intent : RegistrationIntent}

theorem decodeSignature_hexBytes (signature : Vector UInt8 64) :
    decodeSignature (hexBytes signature.toList) = .ok signature := by
  have hascii : ∀ c ∈ hexBytes signature.toList, isAscii c = true := fun c hc => (EnrollmentKeyMaterial.mem_checksum hc).1
  have hdigits : (hexBytes signature.toList).all (isDigit 16) = true := by
    have hall : ∀ c ∈ "0123456789abcdef".toList, isDigit 16 c = true := List.all_iff_forall_prop.mp (by decide)
    exact List.all_eq_true.mpr fun c hc => hall c (mem_hexBytes hc)
  have hsize : (String.ofList (hexBytes signature.toList)).utf8ByteSize = 128 := by
    rw [EnrollmentKeyMaterial.utf8ByteSize_ascii hascii, length_hexBytes, Vector.length_toList]
  have hproof : Checks.require ((String.ofList (hexBytes signature.toList)).utf8ByteSize = 128 ∧
      (hexBytes signature.toList).all (isDigit 16) = true) EnrollmentKeyError.invalidFormat = .ok () :=
    require_of ⟨hsize, hdigits⟩
  simp only [decodeSignature, hproof, ok_bind, parseHex_hexBytes, Protocol.toVector_toList, okOr]

theorem encode_signature (intent : RegistrationIntent) (signature : Option (Vector UInt8 64)) :
    encode { intent with signature } = intent.encode := rfl

theorem signature_of_built (h : Built intent) : intent.signature = none := by
  cases h with
  | client name purpose h =>
      obtain ⟨-, rfl⟩ := new_eq_ok.mp h
      rfl
  | profile name uid purpose h =>
      obtain ⟨-, -, rfl⟩ := forProfile_eq_ok.mp h
      rfl

theorem decode_wireCredential (h : Built intent) (signature : Option (Vector UInt8 64)) :
    decode (wireCredential { intent with signature }) = .ok { intent with signature } := by
  have hcolon := colon_not_mem_encode h
  have hsize := utf8ByteSize_encode_le h
  cases signature with
  | none =>
      have hwire : wireCredential { intent with signature := none } = intent.encode := rfl
      have hlimit : ¬EnrollmentKeyMaterial.maxEncodedBytes < intent.encode.utf8ByteSize := by
        rw [EnrollmentKeyMaterial.maxEncodedBytes]
        omega
      rw [hwire, decode, require_of hlimit, splitOnce_eq_none.mpr hcolon]
      simp only [ok_bind, decodeIntent_encode h]
      rfl
  | some signature =>
      have hwire : wireCredential { intent with signature := some signature } =
          String.ofList (intent.encode.toList ++ ':' :: hexBytes signature.toList) := rfl
      have hsigned : (String.ofList (intent.encode.toList ++ ':' :: hexBytes signature.toList)).utf8ByteSize =
          intent.encode.utf8ByteSize + 129 := by
        have hhex : ∀ c ∈ ':' :: hexBytes signature.toList, isAscii c = true :=
          List.forall_mem_cons.mpr ⟨rfl, fun c hc => (EnrollmentKeyMaterial.mem_checksum hc).1⟩
        have hproof := EnrollmentKeyMaterial.utf8ByteSize_ascii hhex
        rw [List.length_cons, length_hexBytes, Vector.length_toList] at hproof
        rw [String.ofList_append, String.utf8ByteSize_append, String.ofList_toList, hproof]
      have hlimit : ¬EnrollmentKeyMaterial.maxEncodedBytes <
          (String.ofList (intent.encode.toList ++ ':' :: hexBytes signature.toList)).utf8ByteSize := by
        rw [hsigned, EnrollmentKeyMaterial.maxEncodedBytes]
        omega
      rw [hwire, decode, require_of hlimit, String.toList_ofList, splitOnce_append hcolon]
      simp only [ok_bind, decodeSignature_hexBytes, decodeIntent_encode h]
      rfl

/-- The part of a text before the first colon. -/
def beforeColon (text : String) : String := String.ofList (text.toList.takeWhile (· ≠ ':'))

theorem takeWhile_ne {c : Char} {before : List Char} (h : c ∉ before) (after : List Char) :
    (before ++ c :: after).takeWhile (· ≠ c) = before ∧ before.takeWhile (· ≠ c) = before := by
  have hall : ∀ d ∈ before, decide (d ≠ c) = true := fun d hd => decide_eq_true fun heq => h (heq ▸ hd)
  refine ⟨?_, by simpa using @List.takeWhile_append_of_pos _ _ _ [] hall⟩
  rw [List.takeWhile_append_of_pos hall, List.takeWhile_cons_of_neg (by simp), List.append_nil]

theorem encode_of_decode {text : String} (h : decode text = .ok intent) :
    Built { intent with signature := none } ∧ intent.encode = beforeColon text := by
  rw [decode, bind_eq_ok] at h
  obtain ⟨_, -, h⟩ := h
  split at h
  · next part proof hsplit =>
    simp only [bind_eq_ok, pure_eq_ok] at h
    obtain ⟨signature, -, result, hresult, rfl⟩ := h
    obtain ⟨hbuilt, hencode⟩ := encode_of_decodeIntent hresult
    obtain ⟨htext, hcolon⟩ := splitOnce_eq_some.mp hsplit
    refine ⟨?_, ?_⟩
    · have hnone := signature_of_built hbuilt
      rw [← hnone]
      exact hbuilt
    · rw [beforeColon, htext, (takeWhile_ne hcolon proof).1, ← hencode, String.ofList_toList]
      rfl
  · next hsplit =>
    simp only [bind_eq_ok, pure_eq_ok] at h
    obtain ⟨result, hresult, rfl⟩ := h
    obtain ⟨hbuilt, hencode⟩ := encode_of_decodeIntent hresult
    refine ⟨?_, ?_⟩
    · have hnone := signature_of_built hbuilt
      rw [← hnone]
      exact hbuilt
    · rw [beforeColon, (takeWhile_ne (splitOnce_eq_none.mp hsplit) []).2, ← hencode, String.ofList_toList]
      rfl

/-- Intents are written and read without loss, and each has one spelling. -/
theorem intent_codec :
    (∀ intent, Built intent → ∀ signature, decode (wireCredential { intent with signature }) = .ok { intent with signature }) ∧
    (∀ text intent, decode text = .ok intent → intent.encode = beforeColon text) ∧
    (∀ a b, Built a → Built b → a.encode = b.encode → a = b) ∧
    (∀ s t a b, decode s = .ok a → decode t = .ok b →
      (beforeColon s = beforeColon t ↔ { a with signature := none } = { b with signature := none })) := by
  have hinjective : ∀ a b, Built a → Built b → a.encode = b.encode → a = b := by
    intro a b ha hb heq
    have hdecode := decodeIntent_encode ha
    rw [heq, decodeIntent_encode hb] at hdecode
    exact (Except.ok.inj hdecode).symm
  refine ⟨fun intent h signature => decode_wireCredential h signature, fun text intent h => (encode_of_decode h).2,
    hinjective, fun s t a b ha hb => ?_⟩
  obtain ⟨hbuiltA, hencodeA⟩ := encode_of_decode ha
  obtain ⟨hbuiltB, hencodeB⟩ := encode_of_decode hb
  rw [← hencodeA, ← hencodeB]
  constructor
  · exact hinjective _ _ hbuiltA hbuiltB
  · intro heq
    rw [← encode_signature a none, heq, encode_signature]

end Signed

end RegistrationIntent

end Rustgo.Enrollment
