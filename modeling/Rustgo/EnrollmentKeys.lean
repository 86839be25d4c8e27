import Mathlib.Data.Bool.AllAny
import Rustgo.Base64
import Rustgo.EnrollmentRows
import Rustgo.FrameCodec
import Rustgo.Ipv6Text
import Rustgo.Sha256
import Rustgo.TextParts

namespace Rustgo.Enrollment

open Checks Numerals TextParts
open Managed (isWhitespace rsplitOnce)
open Postcard.Format (decodeUtf8 utf8)
open Protocol (slice toVector)

inductive EnrollmentKeyError
  | invalidFormat
  | unsupportedVersion
  | invalidChecksum
  | invalidPurpose
  | invalidAddress
  deriving DecidableEq

section Address

def isAscii (c : Char) : Bool := c.toNat < 128

def validatePort (port : Option (List Char)) : Except EnrollmentKeyError Nat := do
  let text ← okOr port .invalidAddress
  let port ← okOr (fromStrRadix 10 65536 text) .invalidAddress
  require (port ≠ 0) .invalidAddress
  pure port

def canonicalEnrollmentServerAddr (address : String) : Except EnrollmentKeyError String :=
  match address.toList with
  | '[' :: text => do
      let (host, suffix) ← okOr (splitOnce ']' text) .invalidAddress
      let port ← validatePort (stripPrefix [':'] suffix)
      let ip ← okOr (Ipv6.parse host) .invalidAddress
      pure (String.ofList ('[' :: (Ipv6.display ip ++ ']' :: ':' :: Nat.toDigits 10 port)))
  | text => do
      let (host, port) ← okOr (rsplitOnce ':' text) .invalidAddress
      require (host ≠ [] ∧ ':' ∉ host ∧ host.all isAscii = true ∧ host.any isWhitespace = false) .invalidAddress
      let port ← validatePort (some port)
      pure (String.ofList (host.map Char.toLower ++ ':' :: Nat.toDigits 10 port))

end Address

structure EnrollmentKeyMaterial where
  serverAddr : String
  certificateFingerprint : Vector UInt8 32
  purpose : EnrollmentPurpose
  token : Vector UInt8 32
  deriving DecidableEq

namespace EnrollmentKeyMaterial

def keyPrefix : List Char := "rustgo-enroll-v1.".toList

def maxEncodedBytes : Nat := 512

def new (purpose : EnrollmentPurpose) (serverAddr : String) (certificateFingerprint token : Vector UInt8 32) :
    Except EnrollmentKeyError EnrollmentKeyMaterial := do
  let serverAddr ← canonicalEnrollmentServerAddr serverAddr
  pure ⟨serverAddr, certificateFingerprint, purpose, token⟩

def purposeByte : EnrollmentPurpose → UInt8
  | .enroll => 1
  | .reEnroll => 2

/-- The length of the address is cast to sixteen bits. -/
def payload (m : EnrollmentKeyMaterial) : Bytes :=
  let address := utf8 m.serverAddr
  [purposeByte m.purpose] ++ (be 2 address.length ++ (address ++ (m.certificateFingerprint.toList ++ m.token.toList)))

def checksum (payload : Bytes) : Bytes := (Sha256.digest payload).toList.take 4

def encode (m : EnrollmentKeyMaterial) : String :=
  String.ofList (keyPrefix ++ (Base64.encode Base64.urlSafe m.payload ++ '.' :: hexBytes (checksum m.payload)))

def decodeChecksum (encoded : List Char) : Except EnrollmentKeyError Bytes := okOr (parseHex encoded) .invalidChecksum

def purposeOf : UInt8 → Except EnrollmentKeyError EnrollmentPurpose
  | 1 => .ok .enroll
  | 2 => .ok .reEnroll
  | _ => .error .invalidPurpose

/-- What `decode` makes of the payload once its checksum is verified. -/
def ofPayload (payload : Bytes) : Except EnrollmentKeyError EnrollmentKeyMaterial := do
  require (3 + 2 * 32 ≤ payload.length) .invalidFormat
  let purpose ← purposeOf (payload.headD 0)
  let addressLen := ofBe (slice payload 1 2)
  require (payload.length = 3 + addressLen + 2 * 32) .invalidFormat
  let address ← okOr (decodeUtf8 (slice payload 3 addressLen)) .invalidAddress
  let fingerprint ← okOr (toVector 32 (slice payload (3 + addressLen) 32)) .invalidFormat
  let token ← okOr (toVector 32 (payload.drop (3 + addressLen + 32))) .invalidFormat
  new purpose address fingerprint token

def decode (encoded : String) : Except EnrollmentKeyError EnrollmentKeyMaterial := do
  require (¬(encoded.utf8ByteSize = 0 ∨ maxEncodedBytes < encoded.utf8ByteSize)) .invalidFormat
  let remainder ← okOr (stripPrefix keyPrefix encoded.toList) .unsupportedVersion
  let (payloadEncoded, checksumEncoded) ← okOr (splitOnce '.' remainder) .invalidFormat
  require ((String.ofList checksumEncoded).utf8ByteSize = 8 ∧ '.' ∉ checksumEncoded) .invalidChecksum
  let payload ← okOr (Base64.decode Base64.urlSafe payloadEncoded) .invalidFormat
  let claimed ← decodeChecksum checksumEncoded
  require (checksum payload = claimed) .invalidChecksum
  ofPayload payload

end EnrollmentKeyMaterial

section Canonical

variable {address : String} {port : Nat} {text : List Char}

theorem validatePort_eq_ok : validatePort (some text) = .ok port ↔ fromStrRadix 10 65536 text = some port ∧ port ≠ 0 := by
  simp only [validatePort, bind_eq_ok, okOr_eq_ok, require_eq_ok, pure_eq_ok, Option.some.injEq, exists_eq_left']
  constructor
  · rintro ⟨n, hn, _, hzero, rfl⟩
    exact ⟨hn, hzero⟩
  · rintro ⟨hn, hzero⟩
    exact ⟨port, hn, (), hzero, rfl⟩

/-- A port is accepted again as it is printed. -/
theorem validatePort_toDigits (h : validatePort (some text) = .ok port) :
    validatePort (some (Nat.toDigits 10 port)) = .ok port := by
  obtain ⟨hparse, hzero⟩ := validatePort_eq_ok.mp h
  exact validatePort_eq_ok.mpr ⟨fromStrRadix_toDigits (by decide) (by decide) (fromStrRadix_lt hparse), hzero⟩

theorem rsplitOnce_append {c : Char} {before after : List Char} (h : c ∉ after) :
    rsplitOnce c (before ++ c :: after) = some (before, after) := by
  have htake : ((before ++ c :: after).reverse.takeWhile (· ≠ c)).reverse = after := by
    have hreverse : (before ++ c :: after).reverse = after.reverse ++ c :: before.reverse := by simp
    have hall : ∀ d ∈ after.reverse, decide (d ≠ c) = true := by
      intro d hd
      exact decide_eq_true fun hdc => h (hdc ▸ List.mem_reverse.mp hd)
    rw [hreverse, List.takeWhile_append_of_pos hall, List.takeWhile_cons_of_neg (by simp), List.append_nil,
      List.reverse_reverse]
  have hlen : (before ++ c :: after).length - after.length - 1 = before.length := by
    rw [List.length_append, List.length_cons]
    omega
  rw [rsplitOnce, if_pos (by simp), htake]
  simp only [hlen, List.take_left']

/-- What stands before the last `c` begins the text. -/
theorem prefix_of_rsplitOnce {c : Char} {text before after : List Char} (h : rsplitOnce c text = some (before, after)) :
    ∃ tail, text = before ++ tail := by
  rw [rsplitOnce] at h
  split at h
  · obtain ⟨rfl, -⟩ := Prod.mk.inj (Option.some.inj h)
    exact ⟨_, (List.take_append_drop _ text).symm⟩
  · cases h

theorem not_mem_toDigits {c : Char} (h : isDigit 10 c = false) (n : Nat) : c ∉ Nat.toDigits 10 n := fun hmem =>
  absurd (List.all_eq_true.mp (all_toDigits (by decide) (by decide) n) c hmem) (by simp [h])

/-- The characters of a host in lower case. -/
theorem toLower_ascii (c : Char) (h : isAscii c = true) :
    isAscii c.toLower = true ∧ c.toLower.toLower = c.toLower ∧ isWhitespace c.toLower = isWhitespace c ∧
      (c.toLower = ':' → c = ':') ∧ (c.toLower = '[' → c = '[') := by
  have hall : ∀ n : Fin 128, let c := Char.ofNat n; isAscii c.toLower = true ∧ c.toLower.toLower = c.toLower ∧
      isWhitespace c.toLower = isWhitespace c ∧ (c.toLower = ':' → c = ':') ∧ (c.toLower = '[' → c = '[') := by
    decide +kernel
  have hc := hall ⟨c.toNat, of_decide_eq_true h⟩
  rwa [Char.ofNat_toNat] at hc

theorem canonical_bracketed {ip : Ipv6.Segments} (h : validatePort (some (Nat.toDigits 10 port)) = .ok port) :
    canonicalEnrollmentServerAddr (String.ofList ('[' :: (Ipv6.display ip ++ ']' :: ':' :: Nat.toDigits 10 port))) =
      .ok (String.ofList ('[' :: (Ipv6.display ip ++ ']' :: ':' :: Nat.toDigits 10 port))) := by
  have hbracket : ']' ∉ Ipv6.display ip := fun hmem => by
    have hno : ¬(']' = ':' ∨ ']' = '.' ∨ isDigit 16 ']' = true) := by decide
    exact hno (Ipv6.isWritten_display ip ']' hmem)
  have hstrip : stripPrefix [':'] (':' :: Nat.toDigits 10 port) = some (Nat.toDigits 10 port) := stripPrefix_append [':'] _
  rw [canonicalEnrollmentServerAddr, String.toList_ofList]
  simp only [splitOnce_append hbracket, hstrip, h, Ipv6.parse_display, okOr, ok_bind]
  rfl

theorem canonical_host {host : List Char} (hne : host ≠ []) (hcolon : ':' ∉ host) (hascii : host.all isAscii = true)
    (hspace : host.any isWhitespace = false) (hstart : host.head? ≠ some '[')
    (h : validatePort (some (Nat.toDigits 10 port)) = .ok port) :
    canonicalEnrollmentServerAddr (String.ofList (host.map Char.toLower ++ ':' :: Nat.toDigits 10 port)) =
      .ok (String.ofList (host.map Char.toLower ++ ':' :: Nat.toDigits 10 port)) := by
  have hall : ∀ c ∈ host, isAscii c = true := List.all_eq_true.mp hascii
  have hne' : host.map Char.toLower ≠ [] := fun hnil => hne (List.map_eq_nil_iff.mp hnil)
  have hcolon' : ':' ∉ host.map Char.toLower := by
    intro hmem
    obtain ⟨c, hc, heq⟩ := List.mem_map.mp hmem
    exact hcolon ((toLower_ascii c (hall c hc)).2.2.2.1 heq ▸ hc)
  have hascii' : (host.map Char.toLower).all isAscii = true := by
    rw [List.all_map, List.all_eq_true]
    exact fun c hc => (toLower_ascii c (hall c hc)).1
  have hspace' : (host.map Char.toLower).any isWhitespace = false := by
    rw [List.any_map, List.any_eq_false]
    intro c hc
    have hc' := List.any_eq_false.mp hspace c hc
    rwa [Function.comp_apply, (toLower_ascii c (hall c hc)).2.2.1]
  have hlower : (host.map Char.toLower).map Char.toLower = host.map Char.toLower := by
    rw [List.map_map]
    exact List.map_congr_left fun c hc => (toLower_ascii c (hall c hc)).2.1
  have hport : ':' ∉ Nat.toDigits 10 port := not_mem_toDigits (by decide) port
  have hrequire : Checks.require (host.map Char.toLower ≠ [] ∧ ':' ∉ host.map Char.toLower ∧
      (host.map Char.toLower).all isAscii = true ∧ (host.map Char.toLower).any isWhitespace = false)
      EnrollmentKeyError.invalidAddress = .ok () := require_of ⟨hne', hcolon', hascii', hspace'⟩
  rw [canonicalEnrollmentServerAddr, String.toList_ofList]
  split
  · next text heq =>
    cases host with
    | nil => exact absurd rfl hne
    | cons c host =>
        have hc : c.toLower = '[' := (List.cons.inj heq).1
        exact absurd (congrArg some ((toLower_ascii c (hall c List.mem_cons_self)).2.2.2.2 hc)) hstart
  · simp only [rsplitOnce_append hport, okOr, h, hlower, ok_bind, hrequire]
    rfl

/-- An address that is accepted is accepted again in its canonical spelling, and keeps it. -/
theorem canonical_idempotent {canonical : String} (h : canonicalEnrollmentServerAddr address = .ok canonical) :
    canonicalEnrollmentServerAddr canonical = .ok canonical := by
  rw [canonicalEnrollmentServerAddr] at h
  split at h
  · simp only [bind_eq_ok, okOr_eq_ok, pure_eq_ok, Prod.exists] at h
    obtain ⟨host, suffix, -, port, hport, ip, -, rfl⟩ := h
    cases hsuffix : stripPrefix [':'] suffix with
    | none =>
        rw [hsuffix] at hport
        cases hport
    | some text =>
        rw [hsuffix] at hport
        exact canonical_bracketed (validatePort_toDigits hport)
  · next hbracket =>
    simp only [bind_eq_ok, okOr_eq_ok, require_eq_ok, pure_eq_ok, Prod.exists] at h
    obtain ⟨host, text, hsplit, _, ⟨hne, hcolon, hascii, hspace⟩, port, hport, rfl⟩ := h
    refine canonical_host hne hcolon hascii hspace (fun hstart => ?_) (validatePort_toDigits hport)
    obtain ⟨rest, rfl⟩ := List.head?_eq_some_iff.mp hstart
    obtain ⟨tail, htail⟩ := prefix_of_rsplitOnce hsplit
    exact hbracket (rest ++ tail) htail

end Canonical

namespace EnrollmentKeyMaterial

section RoundTrip

variable {m : EnrollmentKeyMaterial}

theorem length_utf8 (s : String) : (utf8 s).length = s.utf8ByteSize := by
  rw [utf8, Array.length_toList]
  rfl

theorem utf8ByteSize_ascii {cs : List Char} (h : ∀ c ∈ cs, isAscii c = true) : (String.ofList cs).utf8ByteSize = cs.length := by
  rw [String.utf8ByteSize_ofList]
  induction cs with
  | nil => rfl
  | cons c cs ih =>
      rw [List.forall_mem_cons] at h
      have hsize : c.utf8Size = 1 := Char.utf8Size_eq_one_iff.mpr (by
        have hlt : c.toNat < 128 := of_decide_eq_true h.1
        exact UInt32.le_iff_toNat_le.mpr (Nat.le_of_lt_succ hlt))
      rw [String.utf8Len_cons, ih h.2, hsize, List.length_cons]

theorem mem_checksum {bytes : Bytes} {c : Char} (h : c ∈ hexBytes bytes) : isAscii c = true ∧ c ≠ '.' := by
  have hall : ∀ c ∈ "0123456789abcdef".toList, isAscii c = true ∧ c ≠ '.' := List.all_iff_forall_prop.mp (by decide)
  exact hall c (mem_hexBytes h)

theorem length_checksum (payload : Bytes) : (checksum payload).length = 4 := by
  simp [checksum]

theorem length_payload (m : EnrollmentKeyMaterial) : m.payload.length = 67 + m.serverAddr.utf8ByteSize := by
  simp only [payload, List.length_append, List.length_singleton, length_be, length_utf8, Vector.length_toList]
  omega

theorem purposeOf_purposeByte (purpose : EnrollmentPurpose) : purposeOf (purposeByte purpose) = .ok purpose := by
  cases purpose <;> rfl

/-- The length of the address has sixteen bits. -/
theorem ofPayload_payload (h : m.serverAddr.utf8ByteSize < 65536) :
    ofPayload m.payload = new m.purpose m.serverAddr m.certificateFingerprint m.token := by
  have hlen : ofBe (be 2 (utf8 m.serverAddr).length) = m.serverAddr.utf8ByteSize := by
    rw [length_utf8]
    exact ofBe_be h
  have hlength : m.payload = [purposeByte m.purpose] ++ (be 2 (utf8 m.serverAddr).length ++ (utf8 m.serverAddr ++
      (m.certificateFingerprint.toList ++ m.token.toList))) := rfl
  have haddress : m.payload = ([purposeByte m.purpose] ++ be 2 (utf8 m.serverAddr).length) ++ (utf8 m.serverAddr ++
      (m.certificateFingerprint.toList ++ m.token.toList)) := by simp [payload]
  have hfingerprint : m.payload = ([purposeByte m.purpose] ++ (be 2 (utf8 m.serverAddr).length ++ utf8 m.serverAddr)) ++
      (m.certificateFingerprint.toList ++ m.token.toList) := by simp [payload]
  have hlength : slice m.payload 1 2 = be 2 (utf8 m.serverAddr).length := Protocol.slice_eq hlength rfl (length_be 2 _)
  have haddress : slice m.payload 3 m.serverAddr.utf8ByteSize = utf8 m.serverAddr :=
    Protocol.slice_eq haddress (by simp) (length_utf8 _)
  have hfingerprint : slice m.payload (3 + m.serverAddr.utf8ByteSize) 32 = m.certificateFingerprint.toList :=
    Protocol.slice_eq hfingerprint (by simp [length_utf8]; omega) (by simp)
  have htoken : m.payload.drop (3 + m.serverAddr.utf8ByteSize + 32) = m.token.toList := by
    have hsplit : m.payload = ([purposeByte m.purpose] ++ (be 2 (utf8 m.serverAddr).length ++ (utf8 m.serverAddr ++
        m.certificateFingerprint.toList))) ++ m.token.toList := by simp [payload]
    have hbefore : ([purposeByte m.purpose] ++ (be 2 (utf8 m.serverAddr).length ++ (utf8 m.serverAddr ++
        m.certificateFingerprint.toList))).length = 3 + m.serverAddr.utf8ByteSize + 32 := by
      simp [length_utf8]
      omega
    rw [hsplit, List.drop_left' hbefore]
  have hpurpose : purposeOf (m.payload.headD 0) = .ok m.purpose := purposeOf_purposeByte m.purpose
  have hmin : 3 + 2 * 32 ≤ m.payload.length := by
    rw [length_payload]
    exact Nat.le_add_right _ _
  have hexact : m.payload.length = 3 + m.serverAddr.utf8ByteSize + 2 * 32 := by
    rw [length_payload]
    omega
  simp only [ofPayload, hlength, hlen, haddress, hfingerprint, htoken, hpurpose, Postcard.Format.decodeUtf8_utf8,
    Protocol.toVector_toList, require_of hmin, require_of hexact, okOr, ok_bind]

theorem utf8ByteSize_encode (m : EnrollmentKeyMaterial) :
    (encode m).utf8ByteSize = 26 + (4 * (67 + m.serverAddr.utf8ByteSize) + 2) / 3 := by
  have hprefix : ∀ c ∈ keyPrefix, isAscii c = true := List.all_iff_forall_prop.mp (by decide)
  have halphabet : ∀ c ∈ Base64.urlSafe.chars, isAscii c = true := List.all_iff_forall_prop.mp (by decide)
  rw [encode, utf8ByteSize_ascii]
  · have hlen : keyPrefix.length = 17 := by decide
    rw [List.length_append, List.length_append, List.length_cons, Base64.length_encode, length_hexBytes,
      length_checksum, length_payload, hlen]
    omega
  · intro c hc
    simp only [List.mem_append, List.mem_cons] at hc
    rcases hc with hc | hc | rfl | hc
    · exact hprefix c hc
    · exact halphabet c (Base64.mem_of_mem_encode _ hc)
    · rfl
    · exact (mem_checksum hc).1

/-- The decoder finds the payload in every key that is not too long for it. -/
theorem decode_encode_eq (h : (encode m).utf8ByteSize ≤ maxEncodedBytes) : decode (encode m) = ofPayload m.payload := by
  have hdot : '.' ∉ Base64.encode Base64.urlSafe m.payload := fun hmem => by
    have hno : '.' ∉ Base64.urlSafe.chars := by decide
    exact hno (Base64.mem_of_mem_encode _ hmem)
  have hdot' : '.' ∉ hexBytes (checksum m.payload) := fun hmem => (mem_checksum hmem).2 rfl
  have hpos : (encode m).utf8ByteSize ≠ 0 := by
    rw [utf8ByteSize_encode]
    omega
  have hsize : (String.ofList (hexBytes (checksum m.payload))).utf8ByteSize = 8 := by
    rw [utf8ByteSize_ascii fun c hc => (mem_checksum hc).1, length_hexBytes, length_checksum]
  have htext : (encode m).toList =
      keyPrefix ++ (Base64.encode Base64.urlSafe m.payload ++ '.' :: hexBytes (checksum m.payload)) :=
    String.toList_ofList
  rw [decode, require_of (not_or.mpr ⟨hpos, Nat.not_lt.mpr h⟩), htext, stripPrefix_append]
  simp only [okOr, ok_bind, splitOnce_append hdot, Base64.decode_encode, decodeChecksum, parseHex_hexBytes,
    require_of (show _ ∧ _ from ⟨hsize, hdot'⟩), require_of]

end RoundTrip

section Issued

variable {purpose : EnrollmentPurpose} {address : String} {certificateFingerprint token : Vector UInt8 32}
  {m : EnrollmentKeyMaterial}

theorem new_eq_ok : new purpose address certificateFingerprint token = .ok m ↔
    ∃ canonical, canonicalEnrollmentServerAddr address = .ok canonical ∧
      ⟨canonical, certificateFingerprint, purpose, token⟩ = m := by
  simp only [new, bind_eq_ok, pure_eq_ok]

/-- The material of a new key is made again from its own parts. -/
theorem new_self (h : new purpose address certificateFingerprint token = .ok m) :
    canonicalEnrollmentServerAddr m.serverAddr = .ok m.serverAddr ∧
      new m.purpose m.serverAddr m.certificateFingerprint m.token = .ok m := by
  obtain ⟨canonical, hcanonical, rfl⟩ := new_eq_ok.mp h
  have hself := canonical_idempotent hcanonical
  exact ⟨hself, new_eq_ok.mpr ⟨canonical, hself, rfl⟩⟩

/-- The decoder refuses a key of more than 512 bytes. The encoder writes one for a long address all the same. -/
theorem serverAddr_le_of_decode (h : decode (encode m) = .ok m) : m.serverAddr.utf8ByteSize ≤ 297 := by
  rw [decode, bind_eq_ok] at h
  obtain ⟨_, hlimit, -⟩ := h
  have hlimit := Nat.not_lt.mp (not_or.mp (require_eq_ok.mp hlimit)).2
  rw [utf8ByteSize_encode, maxEncodedBytes] at hlimit
  omega

/-- A new key is redeemed if and only if its address has at most 297 bytes. -/
theorem key_redeemed_iff (purpose : EnrollmentPurpose) (address : String) (certificateFingerprint token : Vector UInt8 32)
    (m : EnrollmentKeyMaterial) (h : new purpose address certificateFingerprint token = .ok m) :
    (decode (encode m) = .ok m ∧ canonicalEnrollmentServerAddr m.serverAddr = .ok m.serverAddr) ↔
      m.serverAddr.utf8ByteSize ≤ 297 := by
  constructor
  · rintro ⟨hdecode, -⟩
    exact serverAddr_le_of_decode hdecode
  · intro haddress
    have hlimit : (encode m).utf8ByteSize ≤ maxEncodedBytes := by
      rw [utf8ByteSize_encode, maxEncodedBytes]
      omega
    obtain ⟨hcanonical, hnew⟩ := new_self h
    refine ⟨?_, hcanonical⟩
    rw [decode_encode_eq hlimit, ofPayload_payload (by omega), hnew]

theorem key_redeemed_iff_ipv6 :
    let m : EnrollmentKeyMaterial := ⟨"[2001:db8::1]:443", Vector.replicate 32 7, .reEnroll, Vector.replicate 32 9⟩
    decode (encode m) = .ok m ∧ canonicalEnrollmentServerAddr m.serverAddr = .ok m.serverAddr :=
  (key_redeemed_iff .reEnroll "[2001:DB8:0:0::0.0.0.1]:+00443" (Vector.replicate 32 7) (Vector.replicate 32 9) _
    (by decide +kernel)).mpr (by decide)

def longHost : List Char := List.replicate 300 'a'

theorem canonical_longHost : canonicalEnrollmentServerAddr (String.ofList (longHost ++ ":1".toList)) =
    .ok (String.ofList (longHost ++ ":1".toList)) := by
  have hmem : ∀ c ∈ longHost, c = 'a' := fun c hc => (List.mem_replicate.mp hc).2
  have hlower : longHost.map Char.toLower = longHost := List.map_replicate
  have hcanonical := @canonical_host 1 longHost (List.cons_ne_nil 'a' (List.replicate 299 'a'))
    (fun hcolon => absurd (hmem _ hcolon) (by decide)) (List.all_eq_true.mpr fun c hc => hmem c hc ▸ rfl)
    (List.any_eq_false.mpr fun c hc => hmem c hc ▸ by decide) (by simp [longHost]) (by decide)
  rwa [hlower] at hcanonical

/-- A host of three hundred letters is accepted, and the key with it is refused. -/
theorem longHost_not_redeemed : ¬∀ purpose address certificateFingerprint token m,
    new purpose address certificateFingerprint token = .ok m →
      decode (encode m) = .ok m ∧ canonicalEnrollmentServerAddr m.serverAddr = .ok m.serverAddr := by
  intro hall
  have hnew : new .enroll (String.ofList (longHost ++ ":1".toList)) (Vector.replicate 32 0) (Vector.replicate 32 0) =
      .ok ⟨_, _, _, _⟩ := new_eq_ok.mpr ⟨_, canonical_longHost, rfl⟩
  have hshort := serverAddr_le_of_decode (hall _ _ _ _ _ hnew).1
  have hascii : ∀ c ∈ longHost ++ ":1".toList, isAscii c = true := by
    intro c hc
    rcases List.mem_append.mp hc with hc | hc
    · exact (List.mem_replicate.mp hc).2 ▸ rfl
    · have hport : ∀ c ∈ ":1".toList, isAscii c = true := List.all_iff_forall_prop.mp (by decide)
      exact hport c hc
  rw [utf8ByteSize_ascii hascii, List.length_append, longHost, List.length_replicate] at hshort
  exact absurd hshort (by decide)

end Issued

end EnrollmentKeyMaterial

end Rustgo.Enrollment
