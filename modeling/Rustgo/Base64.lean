import Mathlib.Data.List.GetD
import Rustgo.Bytes

namespace Rustgo.Base64

/-- The sixty-four characters of a variant, in the order of their values. -/
structure Alphabet where
  chars : List Char
  nodup : chars.Nodup
  length_eq : chars.length = 64

def urlSafeChars : List Char := "ABCDEFGHIJKLMNOPQRSTUVWXYZabcdefghijklmnopqrstuvwxyz0123456789-_".toList

theorem urlSafeChars_nodup : urlSafeChars.Nodup := by decide

theorem length_urlSafeChars : urlSafeChars.length = 64 := by decide

def urlSafe : Alphabet := ⟨urlSafeChars, urlSafeChars_nodup, length_urlSafeChars⟩

namespace Alphabet

variable (alphabet : Alphabet)

def digit (n : Nat) : Char := alphabet.chars.getD n 'A'

def value (c : Char) : Option Nat := alphabet.chars.idxOf? c

theorem value_eq_some {c : Char} {n : Nat} : alphabet.value c = some n ↔ n < 64 ∧ alphabet.digit n = c := by
  rw [value, List.idxOf?_eq_some_iff]
  constructor
  · rintro ⟨hn, hc, -⟩
    refine ⟨alphabet.length_eq ▸ hn, ?_⟩
    rw [digit, List.getD_eq_getElem _ _ hn]
    exact hc
  · rintro ⟨hn, rfl⟩
    have hn' : n < alphabet.chars.length := by rwa [alphabet.length_eq]
    refine ⟨hn', ?_, ?_⟩
    · rw [digit, List.getD_eq_getElem _ _ hn']
    · intro j hj heq
      rw [digit, List.getD_eq_getElem _ _ hn'] at heq
      exact hj.ne ((List.getElem_inj alphabet.nodup).mp heq)

theorem value_digit {n : Nat} (h : n < 64) : alphabet.value (alphabet.digit n) = some n :=
  alphabet.value_eq_some.mpr ⟨h, rfl⟩

end Alphabet

/-- Three bytes make four values of six bits. The last value of an incomplete group is filled with zeros. -/
def sextets : Bytes → List Nat
  | [] => []
  | [x] => [x.toNat / 4, x.toNat % 4 * 16]
  | [x, y] => [x.toNat / 4, x.toNat % 4 * 16 + y.toNat / 16, y.toNat % 16 * 4]
  | x :: y :: z :: rest =>
      (x.toNat / 4) :: (x.toNat % 4 * 16 + y.toNat / 16) :: (y.toNat % 16 * 4 + z.toNat / 64) :: (z.toNat % 64) :: sextets rest

/-- An incomplete group of one value, and one whose last value is filled with anything else, are refused. -/
def ofSextets : List Nat → Option Bytes
  | [] => some []
  | [_] => none
  | [a, b] => if b % 16 = 0 then some [UInt8.ofNat (a * 4 + b / 16)] else none
  | [a, b, c] =>
      if c % 4 = 0 then some [UInt8.ofNat (a * 4 + b / 16), UInt8.ofNat (b % 16 * 16 + c / 4)] else none
  | a :: b :: c :: d :: rest =>
      (ofSextets rest).map fun bytes =>
        UInt8.ofNat (a * 4 + b / 16) :: UInt8.ofNat (b % 16 * 16 + c / 4) :: UInt8.ofNat (c % 4 * 64 + d) :: bytes

theorem sextets_lt (bytes : Bytes) : ∀ s ∈ sextets bytes, s < 64 := by
  induction bytes using sextets.induct with
  | case1 => simp [sextets]
  | case2 x =>
      have hx := x.toNat_lt
      simp only [sextets, List.mem_cons, List.not_mem_nil, or_false, forall_eq_or_imp, forall_eq]
      omega
  | case3 x y =>
      have hx := x.toNat_lt
      have hy := y.toNat_lt
      simp only [sextets, List.mem_cons, List.not_mem_nil, or_false, forall_eq_or_imp, forall_eq]
      omega
  | case4 x y z rest ih =>
      have hx := x.toNat_lt
      have hy := y.toNat_lt
      have hz := z.toNat_lt
      simp only [sextets, List.mem_cons, forall_eq_or_imp]
      refine ⟨?_, ?_, ?_, ?_, ih⟩ <;> omega

theorem length_sextets (bytes : Bytes) : (sextets bytes).length = (4 * bytes.length + 2) / 3 := by
  induction bytes using sextets.induct with
  | case1 => rfl
  | case2 x => simp [sextets]
  | case3 x y => simp [sextets]
  | case4 x y z rest ih =>
      simp only [sextets, List.length_cons, ih]
      omega

theorem ofNat_eq {n : Nat} {x : UInt8} (h : n = x.toNat) : UInt8.ofNat n = x := by
  rw [h, UInt8.ofNat_toNat]

theorem ofSextets_sextets (bytes : Bytes) : ofSextets (sextets bytes) = some bytes := by
  induction bytes using sextets.induct with
  | case1 => rfl
  | case2 x =>
      have hx : UInt8.ofNat (x.toNat / 4 * 4 + x.toNat % 4 * 16 / 16) = x := ofNat_eq (by omega)
      rw [sextets, ofSextets, if_pos (by omega), hx]
  | case3 x y =>
      have hy' := y.toNat_lt
      have hx : UInt8.ofNat (x.toNat / 4 * 4 + (x.toNat % 4 * 16 + y.toNat / 16) / 16) = x := ofNat_eq (by omega)
      have hy : UInt8.ofNat ((x.toNat % 4 * 16 + y.toNat / 16) % 16 * 16 + y.toNat % 16 * 4 / 4) = y := ofNat_eq (by omega)
      rw [sextets, ofSextets, if_pos (by omega), hx, hy]
  | case4 x y z rest ih =>
      have hy' := y.toNat_lt
      have hz' := z.toNat_lt
      have hx : UInt8.ofNat (x.toNat / 4 * 4 + (x.toNat % 4 * 16 + y.toNat / 16) / 16) = x := ofNat_eq (by omega)
      have hy : UInt8.ofNat ((x.toNat % 4 * 16 + y.toNat / 16) % 16 * 16 + (y.toNat % 16 * 4 + z.toNat / 64) / 4) = y :=
        ofNat_eq (by omega)
      have hz : UInt8.ofNat ((y.toNat % 16 * 4 + z.toNat / 64) % 4 * 64 + z.toNat % 64) = z := ofNat_eq (by omega)
      rw [sextets, ofSextets, ih, Option.map_some, hx, hy, hz]

theorem toNat_ofNat {n : Nat} (h : n < 256) : (UInt8.ofNat n).toNat = n := UInt8.toNat_ofNat_of_lt' h

/-- The values that are accepted are the ones that the bytes are written with. -/
theorem sextets_ofSextets {values : List Nat} (hvalues : ∀ s ∈ values, s < 64) {bytes : Bytes}
    (h : ofSextets values = some bytes) : sextets bytes = values := by
  induction values using ofSextets.induct generalizing bytes with
  | case1 =>
      obtain rfl := Option.some.inj h
      rfl
  | case2 a => cases h
  | case3 a b hb =>
      simp only [List.mem_cons, List.not_mem_nil, or_false, forall_eq_or_imp, forall_eq] at hvalues
      have hx : (UInt8.ofNat (a * 4 + b / 16)).toNat = a * 4 + b / 16 := toNat_ofNat (by omega)
      rw [ofSextets, if_pos hb] at h
      obtain rfl := Option.some.inj h
      rw [sextets, hx]
      simp only [List.cons.injEq, and_true]
      omega
  | case4 a b hb =>
      rw [ofSextets, if_neg hb] at h
      cases h
  | case5 a b c hc =>
      simp only [List.mem_cons, List.not_mem_nil, or_false, forall_eq_or_imp, forall_eq] at hvalues
      have hx : (UInt8.ofNat (a * 4 + b / 16)).toNat = a * 4 + b / 16 := toNat_ofNat (by omega)
      have hy : (UInt8.ofNat (b % 16 * 16 + c / 4)).toNat = b % 16 * 16 + c / 4 := toNat_ofNat (by omega)
      rw [ofSextets, if_pos hc] at h
      obtain rfl := Option.some.inj h
      rw [sextets, hx, hy]
      simp only [List.cons.injEq, and_true]
      omega
  | case6 a b c hc =>
      rw [ofSextets, if_neg hc] at h
      cases h
  | case7 a b c d rest ih =>
      simp only [List.mem_cons, forall_eq_or_imp] at hvalues
      obtain ⟨ha, hb, hc, hd, hrest⟩ := hvalues
      obtain ⟨tail, htail, rfl⟩ := Option.map_eq_some_iff.mp h
      have hx : (UInt8.ofNat (a * 4 + b / 16)).toNat = a * 4 + b / 16 := toNat_ofNat (by omega)
      have hy : (UInt8.ofNat (b % 16 * 16 + c / 4)).toNat = b % 16 * 16 + c / 4 := toNat_ofNat (by omega)
      have hz : (UInt8.ofNat (c % 4 * 64 + d)).toNat = c % 4 * 64 + d := toNat_ofNat (by omega)
      rw [sextets, hx, hy, hz, ih hrest htail]
      simp only [List.cons.injEq, and_true]
      omega

variable (alphabet : Alphabet)

/-- Without padding. -/
def encode (bytes : Bytes) : List Char := (sextets bytes).map alphabet.digit

def decode (text : List Char) : Option Bytes := (text.mapM alphabet.value).bind ofSextets

theorem length_encode (bytes : Bytes) : (encode alphabet bytes).length = (4 * bytes.length + 2) / 3 := by
  rw [encode, List.length_map, length_sextets]

theorem mem_of_mem_encode {bytes : Bytes} {c : Char} (h : c ∈ encode alphabet bytes) : c ∈ alphabet.chars := by
  obtain ⟨s, hs, rfl⟩ := List.mem_map.mp h
  have hlt : s < alphabet.chars.length := by
    rw [alphabet.length_eq]
    exact sextets_lt bytes s hs
  rw [Alphabet.digit, List.getD_eq_getElem _ _ hlt]
  exact List.getElem_mem hlt

theorem mapM_value_map_digit {values : List Nat} (h : ∀ s ∈ values, s < 64) :
    (values.map alphabet.digit).mapM alphabet.value = some values := by
  induction values with
  | nil => rfl
  | cons s values ih =>
      rw [List.forall_mem_cons] at h
      rw [List.map_cons, List.mapM_cons, alphabet.value_digit h.1, ih h.2]
      rfl

theorem map_digit_of_mapM_value {text : List Char} {values : List Nat} (h : text.mapM alphabet.value = some values) :
    (∀ s ∈ values, s < 64) ∧ values.map alphabet.digit = text := by
  induction text generalizing values with
  | nil =>
      obtain rfl := Option.some.inj h
      exact ⟨by simp, rfl⟩
  | cons c text ih =>
      rw [List.mapM_cons] at h
      obtain ⟨s, hs, h⟩ := Option.bind_eq_some_iff.mp h
      obtain ⟨rest, hrest, h⟩ := Option.bind_eq_some_iff.mp h
      obtain rfl := Option.some.inj h
      obtain ⟨hlt, hdigit⟩ := alphabet.value_eq_some.mp hs
      obtain ⟨hall, hmap⟩ := ih hrest
      exact ⟨List.forall_mem_cons.mpr ⟨hlt, hall⟩, by rw [List.map_cons, hdigit, hmap]⟩

theorem decode_encode (bytes : Bytes) : decode alphabet (encode alphabet bytes) = some bytes := by
  rw [decode, encode, mapM_value_map_digit alphabet (sextets_lt bytes), Option.bind_some, ofSextets_sextets]

/-- The encoding is canonical: no other text decodes to the bytes. -/
theorem encode_of_decode {text : List Char} {bytes : Bytes} (h : decode alphabet text = some bytes) :
    encode alphabet bytes = text := by
  obtain ⟨values, hvalues, hbytes⟩ := Option.bind_eq_some_iff.mp h
  obtain ⟨hlt, hmap⟩ := map_digit_of_mapM_value alphabet hvalues
  rw [encode, sextets_ofSextets hlt hbytes, hmap]

end Rustgo.Base64
