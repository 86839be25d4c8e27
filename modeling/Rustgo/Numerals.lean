import Mathlib.Data.List.Basic
import Rustgo.Bytes

namespace Rustgo.Numerals

/-- `char::to_digit` up to radix 36. -/
def digitValue (c : Char) : Nat :=
  let n := c.toNat
  if 48 ≤ n ∧ n ≤ 57 then n - 48
  else if 97 ≤ n ∧ n ≤ 122 then n - 87
  else if 65 ≤ n ∧ n ≤ 90 then n - 55
  else 36

def isDigit (radix : Nat) (c : Char) : Bool := digitValue c < radix

def numeral (radix : Nat) (digits : List Char) : Nat := digits.foldl (fun n c => n * radix + digitValue c) 0

def parseDigits (radix bound : Nat) (digits : List Char) : Option Nat :=
  if digits ≠ [] ∧ digits.all (isDigit radix) = true ∧ numeral radix digits < bound then some (numeral radix digits)
  else none

/-- `from_str_radix` of an unsigned type: a sign may stand before the digits. -/
def fromStrRadix (radix bound : Nat) : List Char → Option Nat
  | '+' :: digits => parseDigits radix bound digits
  | digits => parseDigits radix bound digits

theorem fromStrRadix_lt {radix bound n : Nat} {text : List Char} (h : fromStrRadix radix bound text = some n) : n < bound := by
  have hparse : ∀ digits, parseDigits radix bound digits = some n → n < bound := by
    intro digits hdigits
    rw [parseDigits] at hdigits
    split at hdigits
    · next hall =>
      obtain rfl := Option.some.inj hdigits
      exact hall.2.2
    · cases hdigits
  unfold fromStrRadix at h
  split at h
  · exact hparse _ h
  · exact hparse _ h

section Written

variable {b n : Nat}

theorem digitValue_digitChar {d : Nat} (h : d < 16) : digitValue d.digitChar = d := by
  have hall : ∀ d : Fin 16, digitValue (Nat.digitChar d) = d := by decide
  exact hall ⟨d, h⟩

/-- A number is written with the digits of its quotient and its last digit. -/
theorem toDigits_induction {P : Nat → List Char → Prop} (hb : 1 < b) (hone : ∀ d < b, P d [d.digitChar])
    (hsnoc : ∀ n digits, 0 < n / b → P (n / b) digits → P n (digits ++ [(n % b).digitChar])) (n : Nat) :
    P n (Nat.toDigits b n) := by
  induction n using Nat.strongRecOn with
  | ind n ih =>
      rw [Nat.toDigits_eq_if hb]
      split
      · next hlt => exact hone n hlt
      · next hle =>
        have hpos : 0 < n / b := Nat.div_pos (Nat.le_of_not_lt hle) (Nat.lt_trans Nat.zero_lt_one hb)
        have hlt : n / b < n := Nat.div_lt_self (Nat.lt_of_lt_of_le (Nat.lt_trans Nat.zero_lt_one hb) (Nat.le_of_not_lt hle)) hb
        exact hsnoc n _ hpos (ih (n / b) hlt)

theorem numeral_snoc (digits : List Char) (c : Char) : numeral b (digits ++ [c]) = numeral b digits * b + digitValue c := by
  rw [numeral, List.foldl_append]
  rfl

theorem numeral_toDigits (hb : 1 < b) (h16 : b ≤ 16) (n : Nat) : numeral b (Nat.toDigits b n) = n := by
  refine toDigits_induction (P := fun n digits => numeral b digits = n) hb (fun d hd => ?_) (fun n digits _ ih => ?_) n
  · have hd' : digitValue d.digitChar = d := digitValue_digitChar (Nat.lt_of_lt_of_le hd h16)
    simp [numeral, hd']
  · have hd : digitValue (n % b).digitChar = n % b :=
      digitValue_digitChar (Nat.lt_of_lt_of_le (Nat.mod_lt n (Nat.lt_trans Nat.zero_lt_one hb)) h16)
    rw [numeral_snoc, ih, hd]
    exact Nat.div_add_mod' n b

theorem all_toDigits (hb : 1 < b) (h16 : b ≤ 16) (n : Nat) : (Nat.toDigits b n).all (isDigit b) = true := by
  have hdigit : ∀ d < b, isDigit b d.digitChar = true := by
    intro d hd
    rw [isDigit, digitValue_digitChar (Nat.lt_of_lt_of_le hd h16)]
    exact decide_eq_true hd
  refine toDigits_induction (P := fun _ digits => digits.all (isDigit b) = true) hb (fun d hd => ?_) (fun n digits _ ih => ?_) n
  · simp [hdigit d hd]
  · simp [ih, hdigit _ (Nat.mod_lt n (Nat.lt_trans Nat.zero_lt_one hb))]

theorem parseDigits_toDigits (hb : 1 < b) (h16 : b ≤ 16) {bound : Nat} (h : n < bound) :
    parseDigits b bound (Nat.toDigits b n) = some n := by
  have hn := numeral_toDigits hb h16 n
  rw [parseDigits, if_pos ⟨Nat.toDigits_ne_nil, all_toDigits hb h16 n, by rwa [hn]⟩, hn]

theorem fromStrRadix_toDigits (hb : 1 < b) (h16 : b ≤ 16) {bound : Nat} (h : n < bound) :
    fromStrRadix b bound (Nat.toDigits b n) = some n := by
  unfold fromStrRadix
  split
  · next digits heq =>
    have hall := all_toDigits hb h16 n
    rw [heq, List.all_cons, Bool.and_eq_true] at hall
    have hplus : isDigit b '+' = false := by
      have h36 : digitValue '+' = 36 := by decide
      rw [isDigit, h36]
      exact decide_eq_false (by omega)
    rw [hplus] at hall
    exact absurd hall.1 Bool.false_ne_true
  · exact parseDigits_toDigits hb h16 h

/-- Only zero is written with a zero in front. -/
theorem head_toDigits (hb : 1 < b) (h16 : b ≤ 16) (h : 1 < (Nat.toDigits b n).length) :
    ∃ c rest, Nat.toDigits b n = c :: rest ∧ digitValue c ≠ 0 := by
  have hfirst : ∀ n, 0 < n → ∃ c rest, Nat.toDigits b n = c :: rest ∧ digitValue c ≠ 0 := by
    refine toDigits_induction (P := fun n digits => 0 < n → ∃ c rest, digits = c :: rest ∧ digitValue c ≠ 0) hb
      (fun d hd hpos => ?_) (fun n digits hpos ih _ => ?_)
    · refine ⟨d.digitChar, [], rfl, ?_⟩
      rw [digitValue_digitChar (Nat.lt_of_lt_of_le hd h16)]
      exact Nat.ne_of_gt hpos
    · obtain ⟨c, rest, rfl, hc⟩ := ih hpos
      exact ⟨c, rest ++ [(n % b).digitChar], rfl, hc⟩
  rcases Nat.eq_zero_or_pos n with rfl | hpos
  · rw [Nat.toDigits_zero] at h
    exact absurd h (by decide)
  · exact hfirst n hpos

end Written

section Hexadecimal

def hexByte (byte : UInt8) : List Char := [Nat.digitChar (byte.toNat / 16), Nat.digitChar (byte.toNat % 16)]

/-- Two digits a byte, in lower case. -/
def hexBytes (bytes : Bytes) : List Char := bytes.flatMap hexByte

/-- Two characters at a time. -/
def parseHex : List Char → Option Bytes
  | [] => some []
  | [_] => none
  | high :: low :: rest => do
      let byte ← fromStrRadix 16 256 [high, low]
      let bytes ← parseHex rest
      pure (UInt8.ofNat byte :: bytes)

theorem fromStrRadix_hexByte (byte : UInt8) : fromStrRadix 16 256 (hexByte byte) = some byte.toNat := by
  have hall : ∀ n : Fin 256, fromStrRadix 16 256 [Nat.digitChar (n / 16), Nat.digitChar (n % 16)] = some n.val := by
    decide +kernel
  exact hall ⟨byte.toNat, byte.toNat_lt⟩

theorem hexBytes_cons (byte : UInt8) (bytes : Bytes) : hexBytes (byte :: bytes) = hexByte byte ++ hexBytes bytes := rfl

theorem length_hexBytes (bytes : Bytes) : (hexBytes bytes).length = 2 * bytes.length := by
  induction bytes with
  | nil => rfl
  | cons byte bytes ih =>
      rw [hexBytes_cons, List.length_append, ih, hexByte]
      simp only [List.length_cons, List.length_nil]
      omega

theorem parseHex_hexBytes (bytes : Bytes) : parseHex (hexBytes bytes) = some bytes := by
  induction bytes with
  | nil => rfl
  | cons byte bytes ih =>
      have hbyte := fromStrRadix_hexByte byte
      rw [hexByte] at hbyte
      rw [hexBytes_cons, hexByte, List.cons_append, List.cons_append, List.nil_append, parseHex, hbyte, ih]
      simp

theorem length_of_parseHex {text : List Char} {bytes : Bytes} (h : parseHex text = some bytes) :
    text.length = 2 * bytes.length := by
  induction text using parseHex.induct generalizing bytes with
  | case1 =>
      obtain rfl := Option.some.inj h
      rfl
  | case2 c => cases h
  | case3 high low rest ih =>
      obtain ⟨byte, -, h⟩ := Option.bind_eq_some_iff.mp h
      obtain ⟨tail, htail, h⟩ := Option.bind_eq_some_iff.mp h
      obtain rfl := Option.some.inj h
      rw [List.length_cons, List.length_cons, ih htail, List.length_cons]
      omega

theorem digitChar_hex {n : Nat} (h : n < 16) : n.digitChar ∈ "0123456789abcdef".toList := by
  have hall : ∀ n : Fin 16, Nat.digitChar n ∈ "0123456789abcdef".toList := by decide
  exact hall ⟨n, h⟩

theorem mem_hexBytes {bytes : Bytes} {c : Char} (h : c ∈ hexBytes bytes) : c ∈ "0123456789abcdef".toList := by
  obtain ⟨byte, -, hc⟩ := List.mem_flatMap.mp h
  have hbyte := byte.toNat_lt
  simp only [hexByte, List.mem_cons, List.not_mem_nil, or_false] at hc
  rcases hc with rfl | rfl
  · exact digitChar_hex (by omega)
  · exact digitChar_hex (by omega)

end Hexadecimal

end Rustgo.Numerals
