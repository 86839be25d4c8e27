import Mathlib.Data.Bool.AllAny
import Rustgo.Numerals

namespace Rustgo.Ipv6

open Numerals

/-- A part of the parser: what it reads, and the text behind it. -/
abbrev Reader (α : Type) := List Char → Option (α × List Char)

def readNumber (radix maxDigits : Nat) (allowZeroPrefix : Bool) (bound : Nat) : Reader Nat := fun text =>
  let digits := text.takeWhile (isDigit radix)
  if maxDigits < digits.length ∨ digits = [] then none
  else if allowZeroPrefix = false ∧ text.head? = some '0' ∧ 1 < digits.length then none
  else if numeral radix digits < bound then some (numeral radix digits, text.dropWhile (isDigit radix))
  else none

/-- Every part but the first has a separator in front. -/
def readSeparator {α : Type} (separator : Char) (index : Nat) (read : Reader α) : Reader α := fun text =>
  if index = 0 then read text
  else
    match text with
    | c :: rest => if c = separator then read rest else none
    | [] => none

def readOctet (index : Nat) : Reader Nat := readSeparator '.' index (readNumber 10 3 false 256)

def readIpv4Addr : Reader (Nat × Nat × Nat × Nat) := fun text => do
  let (a, text) ← readOctet 0 text
  let (b, text) ← readOctet 1 text
  let (c, text) ← readOctet 2 text
  let (d, text) ← readOctet 3 text
  pure ((a, b, c, d), text)

def readGroup (index : Nat) : Reader Nat := readSeparator ':' index (readNumber 16 4 true 65536)

/-- The groups from `index` on, `count` at most and `limit` altogether, whether the last two are an
embedded IPv4 address, and the rest of the text. -/
def readGroups (limit : Nat) : Nat → Nat → List Char → List UInt16 × Bool × List Char
  | _, 0, text => ([], false, text)
  | index, count + 1, text =>
      match if index + 1 < limit then readSeparator ':' index readIpv4Addr text else none with
      | some ((a, b, c, d), rest) => ([UInt16.ofNat (a * 256 + b), UInt16.ofNat (c * 256 + d)], true, rest)
      | none =>
          match readGroup index text with
          | some (group, rest) =>
              let (groups, ipv4, rest) := readGroups limit (index + 1) count rest
              (UInt16.ofNat group :: groups, ipv4, rest)
          | none => ([], false, text)

abbrev Segments := Vector UInt16 8

/-- The groups before the gap and those after it, with zeros between. -/
def concat (head tail : List UInt16) : Segments :=
  Vector.ofFn fun i => if i.val < 8 - tail.length then head.getD i 0 else tail.getD (i - (8 - tail.length)) 0

/-- `parse::<Ipv6Addr>`, which takes the whole text. -/
def parse (text : List Char) : Option Segments :=
  let (head, headIpv4, rest) := readGroups 8 0 8 text
  if head.length = 8 then if rest = [] then some (concat head []) else none
  else if headIpv4 then none
  else
    match rest with
    | ':' :: ':' :: rest =>
        let limit := 8 - (head.length + 1)
        let (tail, _, rest) := readGroups limit 0 limit rest
        if rest = [] then some (concat head tail) else none
    | _ => none

def hex (group : UInt16) : List Char := Nat.toDigits 16 group.toNat

def fmtSubslice : List UInt16 → List Char
  | [] => []
  | first :: tail => hex first ++ tail.flatMap fun segment => ':' :: hex segment

/-- The first of the longest runs of zeros: where it starts, and its length. -/
def zeroSpan : List UInt16 → Nat → Nat × Nat → Nat × Nat → Nat × Nat
  | [], _, longest, _ => longest
  | segment :: rest, i, longest, current =>
      if segment = 0 then
        let current := (if current.2 = 0 then i else current.1, current.2 + 1)
        zeroSpan rest (i + 1) (if longest.2 < current.2 then current else longest) current
      else zeroSpan rest (i + 1) longest (0, 0)

def displayIpv4 (high low : UInt16) : List Char :=
  Nat.toDigits 10 (high.toNat / 256) ++ '.' :: Nat.toDigits 10 (high.toNat % 256) ++ '.' ::
    Nat.toDigits 10 (low.toNat / 256) ++ '.' :: Nat.toDigits 10 (low.toNat % 256)

/-- The text of `Display`. -/
def display (ip : Segments) : List Char :=
  let segments := ip.toList
  if segments.take 6 = [0, 0, 0, 0, 0, 0xffff] then "::ffff:".toList ++ displayIpv4 ip[6] ip[7]
  else
    let (start, len) := zeroSpan segments 0 (0, 0) (0, 0)
    if 1 < len then fmtSubslice (segments.take start) ++ "::".toList ++ fmtSubslice (segments.drop (start + len))
    else fmtSubslice segments

section Numbers

variable {b n : Nat} {digits rest : List Char}

/-- The text behind a number, which is no part of it. -/
def Stops (radix : Nat) (rest : List Char) : Prop := ∀ c ∈ rest.head?, isDigit radix c = false

theorem takeWhile_digits (hdigits : digits.all (isDigit b) = true) (hrest : Stops b rest) :
    (digits ++ rest).takeWhile (isDigit b) = digits ∧ (digits ++ rest).dropWhile (isDigit b) = rest := by
  have hall : ∀ c ∈ digits, isDigit b c = true := List.all_eq_true.mp hdigits
  have hstop : rest.takeWhile (isDigit b) = [] ∧ rest.dropWhile (isDigit b) = rest := by
    cases rest with
    | nil => exact ⟨rfl, rfl⟩
    | cons c rest =>
        have hc := hrest c rfl
        simp [hc]
  rw [List.takeWhile_append_of_pos hall, List.dropWhile_append_of_pos hall, hstop.1, hstop.2, List.append_nil]
  exact ⟨rfl, rfl⟩

theorem readNumber_toDigits {maxDigits bound : Nat} {allowZeroPrefix : Bool} (hb : 1 < b) (h16 : b ≤ 16)
    (hlen : (Nat.toDigits b n).length ≤ maxDigits) (hn : n < bound) (hrest : Stops b rest) :
    readNumber b maxDigits allowZeroPrefix bound (Nat.toDigits b n ++ rest) = some (n, rest) := by
  obtain ⟨htake, hdrop⟩ := takeWhile_digits (all_toDigits hb h16 n) hrest
  have hlead : ¬(allowZeroPrefix = false ∧ (Nat.toDigits b n ++ rest).head? = some '0' ∧ 1 < (Nat.toDigits b n).length) := by
    rintro ⟨-, hzero, hlong⟩
    obtain ⟨c, tail, htext, hc⟩ := head_toDigits hb h16 hlong
    rw [htext] at hzero
    obtain rfl := Option.some.inj hzero
    exact hc (by decide)
  have hbounds : ¬(maxDigits < (Nat.toDigits b n).length ∨ Nat.toDigits b n = []) :=
    not_or.mpr ⟨Nat.not_lt.mpr hlen, Nat.toDigits_ne_nil⟩
  rw [readNumber]
  simp only [htake, hdrop, numeral_toDigits hb h16 n]
  rw [if_neg hbounds, if_neg hlead, if_pos hn]

theorem readNumber_eq_none {maxDigits bound : Nat} {allowZeroPrefix : Bool} (hrest : Stops b rest) :
    readNumber b maxDigits allowZeroPrefix bound rest = none := by
  have htake : rest.takeWhile (isDigit b) = [] := by
    cases rest with
    | nil => rfl
    | cons c rest =>
        have hc := hrest c rfl
        simp [hc]
  simp [readNumber, htake]

/-- The number that is read ends before the first character that is not one of its digits. -/
theorem readNumber_rest {maxDigits bound : Nat} {allowZeroPrefix : Bool} {text : List Char}
    (h : readNumber b maxDigits allowZeroPrefix bound text = some (n, rest)) : rest = text.dropWhile (isDigit b) := by
  simp only [readNumber] at h
  split at h
  · cases h
  · split at h
    · cases h
    · split at h
      · exact (congrArg Prod.snd (Option.some.inj h)).symm
      · cases h

end Numbers

section Groups

variable {limit index count : Nat} {text rest : List Char} {groups : List UInt16}

theorem length_hex (group : UInt16) : (hex group).length ≤ 4 := by
  have hlt := group.toNat_lt
  exact (Nat.length_toDigits_le_iff (by decide) (by decide)).mpr hlt

theorem all_hex (group : UInt16) : (hex group).all (isDigit 16) = true := all_toDigits (by decide) (by decide) _

/-- What follows a group: no digit of it, and no dot either. -/
def Behind (rest : List Char) : Prop := ∀ c ∈ rest.head?, isDigit 16 c = false ∧ c ≠ '.'

theorem Behind.stops (h : Behind rest) : Stops 16 rest := fun c hc => (h c hc).1

theorem isDigit_mono {c : Char} (h : isDigit 16 c = false) : isDigit 10 c = false := by
  have h16 : ¬digitValue c < 16 := of_decide_eq_false h
  exact decide_eq_false fun h10 => h16 (Nat.lt_trans h10 (by decide))

theorem head_dropWhile_ne {digits : List Char} (hdigits : digits.all (isDigit 16) = true) (hrest : Behind rest) :
    ∀ c ∈ ((digits ++ rest).dropWhile (isDigit 10)).head?, c ≠ '.' := by
  induction digits with
  | nil =>
      intro c hc
      cases rest with
      | nil => cases hc
      | cons d rest =>
          have hd := hrest d rfl
          rw [List.nil_append, List.dropWhile_cons_of_neg (by simp [isDigit_mono hd.1])] at hc
          obtain rfl := Option.some.inj hc
          exact hd.2
  | cons d digits ih =>
      rw [List.all_cons, Bool.and_eq_true] at hdigits
      cases hd : isDigit 10 d with
      | true =>
          rw [List.cons_append, List.dropWhile_cons_of_pos hd]
          exact ih hdigits.2
      | false =>
          rw [List.cons_append, List.dropWhile_cons_of_neg (by simp [hd])]
          rintro c hc rfl
          obtain rfl := Option.some.inj hc
          exact absurd hdigits.1 (by decide)

theorem readOctet_eq_none {index : Nat} (hindex : index ≠ 0) (h : ∀ c ∈ text.head?, c ≠ '.') : readOctet index text = none := by
  unfold readOctet readSeparator
  rw [if_neg hindex]
  cases text with
  | nil => rfl
  | cons c text => exact if_neg (h c rfl)

/-- A group is no octet, as no dot follows its decimal digits. -/
theorem readIpv4Addr_hex (group : UInt16) (hrest : Behind rest) : readIpv4Addr (hex group ++ rest) = none := by
  rw [readIpv4Addr]
  cases hfirst : readOctet 0 (hex group ++ rest) with
  | none => rfl
  | some first =>
      obtain ⟨a, behind⟩ := first
      have hbehind : behind = (hex group ++ rest).dropWhile (isDigit 10) := readNumber_rest hfirst
      have hsecond : readOctet 1 behind = none :=
        readOctet_eq_none (by decide) (hbehind ▸ head_dropWhile_ne (all_hex group) hrest)
      simp [hsecond]

theorem readIpv4Addr_eq_none (h : Stops 10 text) : readIpv4Addr text = none := by
  have hfirst : readOctet 0 text = none := readNumber_eq_none h
  simp [readIpv4Addr, hfirst]

/-- The groups in turn, the first without a colon if it is the first of all. -/
def joined : Nat → List UInt16 → List Char
  | _, [] => []
  | index, group :: groups => (if index = 0 then [] else [':']) ++ hex group ++ joined (index + 1) groups

theorem joined_succ (index : Nat) (groups : List UInt16) :
    joined (index + 1) groups = groups.flatMap fun segment => ':' :: hex segment := by
  induction groups generalizing index with
  | nil => rfl
  | cons group groups ih =>
      rw [joined, if_neg (Nat.succ_ne_zero index), ih, List.flatMap_cons]
      rfl

theorem fmtSubslice_eq (groups : List UInt16) : fmtSubslice groups = joined 0 groups := by
  cases groups with
  | nil => rfl
  | cons first tail =>
      rw [fmtSubslice, joined, joined_succ]
      rfl

theorem readSeparator_group {α : Type} (read : Reader α) (index : Nat) (text : List Char) :
    readSeparator ':' index read ((if index = 0 then [] else [':']) ++ text) = read text := by
  unfold readSeparator
  split
  · rfl
  · exact if_pos rfl

/-- The groups that are written are read, and whatever is read of the text behind them follows. -/
theorem readGroups_joined (hlen : groups.length ≤ count) (hrest : Behind rest) :
    readGroups limit index count (joined index groups ++ rest) =
      let (more, ipv4, rest) := readGroups limit (index + groups.length) (count - groups.length) rest
      (groups ++ more, ipv4, rest) := by
  induction groups generalizing index count with
  | nil => rfl
  | cons group groups ih =>
      cases count with
      | zero => simp at hlen
      | succ count =>
          have hbehind : Behind (joined (index + 1) groups ++ rest) := by
            cases groups with
            | nil => exact hrest
            | cons next groups =>
                intro c hc
                rw [joined, if_neg (Nat.succ_ne_zero index)] at hc
                obtain rfl := Option.some.inj hc
                decide
          have hgroup : readGroup index ((if index = 0 then [] else [':']) ++ (hex group ++ (joined (index + 1) groups ++ rest))) =
              some (group.toNat, joined (index + 1) groups ++ rest) := by
            rw [readGroup, readSeparator_group]
            exact readNumber_toDigits (by decide) (by decide) (length_hex group) group.toNat_lt hbehind.stops
          have hipv4 : (if index + 1 < limit then readSeparator ':' index readIpv4Addr
              ((if index = 0 then [] else [':']) ++ (hex group ++ (joined (index + 1) groups ++ rest))) else none) = none := by
            rw [readSeparator_group, readIpv4Addr_hex group hbehind, ite_self]
          have ih := @ih (index + 1) count (Nat.le_of_succ_le_succ hlen)
          rw [joined, List.append_assoc, List.append_assoc, readGroups, hipv4]
          simp only [hgroup, ih, UInt16.ofNat_toNat, List.length_cons, Nat.add_sub_add_right, List.cons_append]
          rw [Nat.add_right_comm, Nat.add_assoc]

/-- Nothing is read where neither a group nor a separator and a group stand. -/
theorem readGroups_nil (limit index count : Nat) : readGroups limit index count [] = ([], false, []) := by
  cases count with
  | zero => rfl
  | succ count => by_cases hindex : index = 0 <;> simp [readGroups, readGroup, readSeparator, hindex, readIpv4Addr, readOctet, readNumber]

theorem readGroups_gap (limit index count : Nat) (rest : List Char) :
    readGroups limit index count (':' :: ':' :: rest) = ([], false, ':' :: ':' :: rest) := by
  have hcolon : ∀ b rest, b ≤ 16 → Stops b (':' :: rest) := by
    intro b rest hb c hc
    obtain rfl := Option.some.inj hc
    exact decide_eq_false (Nat.not_lt.mpr (Nat.le_trans hb (by decide)))
  have hstop : ∀ {α : Type} (read : Reader α), (∀ rest, read (':' :: rest) = none) →
      readSeparator ':' index read (':' :: ':' :: rest) = none := by
    intro α read hread
    unfold readSeparator
    split
    · exact hread _
    · exact (if_pos rfl).trans (hread _)
  have hipv4 : readSeparator ':' index readIpv4Addr (':' :: ':' :: rest) = none :=
    hstop _ fun rest => readIpv4Addr_eq_none (hcolon 10 rest (by decide))
  have hgroup : readGroup index (':' :: ':' :: rest) = none :=
    hstop _ fun rest => readNumber_eq_none (hcolon 16 rest (by decide))
  cases count with
  | zero => rfl
  | succ count => rw [readGroups, hipv4, ite_self, hgroup]

/-- The groups of a text that ends behind them, or goes on with a gap. -/
theorem readGroups_all (limit : Nat) (hlen : groups.length ≤ count) (hrest : rest = [] ∨ ∃ after, rest = ':' :: ':' :: after) :
    readGroups limit 0 count (joined 0 groups ++ rest) = (groups, false, rest) := by
  have hbehind : Behind rest := by
    intro c hc
    rcases hrest with rfl | ⟨after, rfl⟩
    · cases hc
    · obtain rfl := Option.some.inj hc
      decide
  have hstop : readGroups limit (0 + groups.length) (count - groups.length) rest = ([], false, rest) := by
    rcases hrest with rfl | ⟨after, rfl⟩
    · exact readGroups_nil _ _ _
    · exact readGroups_gap _ _ _ _
  rw [readGroups_joined hlen hbehind, hstop]
  simp only [List.append_nil]

end Groups

section Octets

variable {n : Nat} {rest : List Char}

theorem readOctet_toDigits (index : Nat) (hn : n < 256) (hrest : Stops 10 rest) :
    readOctet index ((if index = 0 then [] else ['.']) ++ (Nat.toDigits 10 n ++ rest)) = some (n, rest) := by
  have hlen : (Nat.toDigits 10 n).length ≤ 3 := (Nat.length_toDigits_le_iff (by decide) (by decide)).mpr (by omega)
  have hread : readNumber 10 3 false 256 (Nat.toDigits 10 n ++ rest) = some (n, rest) :=
    readNumber_toDigits (by decide) (by decide) hlen hn hrest
  unfold readOctet readSeparator
  split
  · exact hread
  · exact (if_pos rfl).trans hread

theorem readIpv4Addr_display (high low : UInt16) : readIpv4Addr (displayIpv4 high low) =
    some ((high.toNat / 256, high.toNat % 256, low.toNat / 256, low.toNat % 256), []) := by
  have hhigh := high.toNat_lt
  have hlow := low.toNat_lt
  have hdot : ∀ rest : List Char, Stops 10 ('.' :: rest) := by
    intro rest c hc
    obtain rfl := Option.some.inj hc
    decide
  have hend : Stops 10 [] := fun c hc => by cases hc
  have ha := readOctet_toDigits 0 (show high.toNat / 256 < 256 by omega) (hdot (Nat.toDigits 10 (high.toNat % 256) ++
    '.' :: (Nat.toDigits 10 (low.toNat / 256) ++ '.' :: Nat.toDigits 10 (low.toNat % 256))))
  have hb := readOctet_toDigits 1 (show high.toNat % 256 < 256 by omega) (hdot (Nat.toDigits 10 (low.toNat / 256) ++
    '.' :: Nat.toDigits 10 (low.toNat % 256)))
  have hc := readOctet_toDigits 2 (show low.toNat / 256 < 256 by omega) (hdot (Nat.toDigits 10 (low.toNat % 256)))
  have hd := readOctet_toDigits 3 (show low.toNat % 256 < 256 by omega) hend
  simp only [if_true, if_neg (show ¬(1 : Nat) = 0 by decide), if_neg (show ¬(2 : Nat) = 0 by decide),
    if_neg (show ¬(3 : Nat) = 0 by decide), List.nil_append, List.append_nil, List.singleton_append] at ha hb hc hd
  simp [readIpv4Addr, displayIpv4, List.append_assoc, ha, hb, hc, hd]

end Octets

section Zeros

/-- A run of zeros within the segments. -/
def Zeros (segments : List UInt16) (span : Nat × Nat) : Prop :=
  ∃ before after, segments = before ++ (List.replicate span.2 0 ++ after) ∧ before.length = span.1

theorem zeroSpan_zeros {rest : List UInt16} (before : List UInt16) {i : Nat} {longest current : Nat × Nat} (hi : before.length = i)
    (hlongest : Zeros before longest)
    (hcurrent : current.2 ≠ 0 → ∃ start, before = start ++ List.replicate current.2 0 ∧ start.length = current.1) :
    Zeros (before ++ rest) (zeroSpan rest i longest current) := by
  induction rest generalizing before i longest current with
  | nil =>
      rw [List.append_nil]
      exact hlongest
  | cons segment rest ih =>
      have hsplit : before ++ segment :: rest = (before ++ [segment]) ++ rest := by simp
      have hwider : Zeros (before ++ [segment]) longest := by
        obtain ⟨start, after, rfl, hstart⟩ := hlongest
        exact ⟨start, after ++ [segment], by simp, hstart⟩
      have hlen : (before ++ [segment]).length = i + 1 := by rw [List.length_append, hi, List.length_singleton]
      rw [hsplit, zeroSpan]
      split
      · next hzero =>
        have hnext : ∃ start, before ++ [segment] = start ++ List.replicate (current.2 + 1) 0 ∧
            start.length = if current.2 = 0 then i else current.1 := by
          by_cases hfirst : current.2 = 0
          · exact ⟨before, by simp [hfirst, hzero], by rw [if_pos hfirst, hi]⟩
          · obtain ⟨start, rfl, hstart⟩ := hcurrent hfirst
            refine ⟨start, ?_, by rw [if_neg hfirst, hstart]⟩
            rw [hzero, List.append_assoc, ← List.replicate_succ']
        obtain ⟨start, hrun, hstart⟩ := hnext
        refine ih _ hlen ?_ fun _ => ⟨start, hrun, hstart⟩
        by_cases hlonger : longest.2 < current.2 + 1
        · rw [if_pos hlonger]
          exact ⟨start, [], by rw [List.append_nil]; exact hrun, hstart⟩
        · rw [if_neg hlonger]
          exact hwider
      · exact ih _ hlen hwider fun hne => absurd rfl hne

end Zeros

theorem toList_concat {head tail : List UInt16} (gap : Nat) (h : head.length + (gap + tail.length) = 8) :
    (concat head tail).toList = head ++ (List.replicate gap 0 ++ tail) := by
  apply List.ext_getElem
  · simpa using h.symm
  · intro i hi hi'
    have hlt : i < 8 := by simpa using hi
    simp only [concat, Vector.getElem_toList, Vector.getElem_ofFn]
    by_cases hhead : i < head.length
    · rw [if_pos (by omega), List.getElem_append_left hhead, List.getD_eq_getElem?_getD, List.getElem?_eq_getElem hhead]
      rfl
    · rw [List.getElem_append_right (Nat.le_of_not_lt hhead)]
      by_cases hgap : i - head.length < gap
      · rw [if_pos (by omega), List.getElem_append_left (by simpa using hgap), List.getElem_replicate,
          List.getD_eq_getElem?_getD, List.getElem?_eq_none (Nat.le_of_not_lt hhead)]
        rfl
      · have htail : i - (8 - tail.length) < tail.length := by omega
        rw [if_neg (by omega), List.getElem_append_right (by simpa using Nat.le_of_not_lt hgap),
          List.getD_eq_getElem?_getD, List.getElem?_eq_getElem htail, Option.getD_some]
        congr 1
        rw [List.length_replicate]
        omega

/-- A text with a gap is read as the groups before it and the groups behind it. -/
theorem parse_gap {before after : List UInt16} {gap : Nat} (hgap : 1 < gap) (h : before.length + (gap + after.length) = 8) :
    parse (joined 0 before ++ ':' :: ':' :: joined 0 after) = some (concat before after) := by
  have hhead := readGroups_all 8 (show before.length ≤ 8 by omega) (.inr ⟨joined 0 after, rfl⟩)
  have htail := readGroups_all (7 - before.length) (show after.length ≤ 7 - before.length by omega) (.inl rfl)
  rw [List.append_nil] at htail
  simp [parse, hhead, htail, show ¬before.length = 8 by omega]

theorem group_of_octets (group : UInt16) : UInt16.ofNat (group.toNat / 256 * 256 + group.toNat % 256) = group := by
  rw [Nat.div_add_mod', UInt16.ofNat_toNat]

/-- A mapped address is read with its IPv4 address at the end. -/
theorem parse_mapped (high low : UInt16) :
    parse ("::ffff:".toList ++ displayIpv4 high low) = some (concat [] [0xffff, high, low]) := by
  have htext : "::ffff:".toList ++ displayIpv4 high low =
      ':' :: ':' :: (joined 0 [0xffff] ++ ':' :: displayIpv4 high low) := by
    have hstart : "::ffff:".toList = ':' :: ':' :: (joined 0 [0xffff] ++ [':']) := by decide
    rw [hstart]
    simp
  have hbehind : Behind (':' :: displayIpv4 high low) := by
    intro c hc
    obtain rfl := Option.some.inj hc
    decide
  have hembedded : readGroups 7 1 6 (':' :: displayIpv4 high low) = ([high, low], true, []) := by
    have hread : readSeparator ':' 1 readIpv4Addr (':' :: displayIpv4 high low) =
        some ((high.toNat / 256, high.toNat % 256, low.toNat / 256, low.toNat % 256), []) := readIpv4Addr_display high low
    rw [readGroups, if_pos (by decide), hread]
    simp only [group_of_octets]
  have htail : readGroups 7 0 7 (joined 0 [0xffff] ++ ':' :: displayIpv4 high low) = ([0xffff, high, low], true, []) := by
    rw [readGroups_joined (by decide) hbehind]
    simp only [List.length_singleton, Nat.zero_add, Nat.reduceSub, hembedded, List.singleton_append]
  rw [htext, parse]
  simp [readGroups_gap, htail]

/-- The parser reads the address that was printed. -/
theorem parse_display (ip : Segments) : parse (display ip) = some ip := by
  have hlen : ip.toList.length = 8 := by simp
  rw [display]
  split
  · next hmapped =>
    rw [parse_mapped]
    refine congrArg some ?_
    apply Vector.toList_inj.mp
    rw [toList_concat 5 rfl, ← List.take_append_drop 6 ip.toList, hmapped]
    have hlast : ip.toList.drop 6 = [ip[6], ip[7]] := by
      apply List.ext_getElem
      · simp
      · intro i hi _
        have hi' : i = 0 ∨ i = 1 := by
          rw [List.length_drop, hlen] at hi
          omega
        rcases hi' with rfl | rfl <;> simp
    rw [hlast]
    rfl
  · have hspan : Zeros ip.toList (zeroSpan ip.toList 0 (0, 0) (0, 0)) :=
      zeroSpan_zeros [] rfl ⟨[], [], rfl, rfl⟩ fun h => absurd rfl h
    obtain ⟨before, after, hsplit, hstart⟩ := hspan
    generalize zeroSpan ip.toList 0 (0, 0) (0, 0) = span at hsplit hstart
    obtain ⟨start, len⟩ := span
    simp only at hsplit hstart ⊢
    split
    · next hlong =>
      have hsum : before.length + (len + after.length) = 8 := by
        rw [← hlen, hsplit, List.length_append, List.length_append, List.length_replicate]
      have htake : ip.toList.take start = before := by rw [hsplit, List.take_left' hstart]
      have hdrop : ip.toList.drop (start + len) = after := by
        rw [hsplit, ← List.append_assoc, List.drop_left']
        rw [List.length_append, hstart, List.length_replicate]
      rw [htake, hdrop, fmtSubslice_eq, fmtSubslice_eq]
      have hparse := parse_gap hlong hsum
      rw [List.append_assoc]
      refine hparse.trans (congrArg some ?_)
      apply Vector.toList_inj.mp
      rw [toList_concat _ hsum, hsplit]
    · have hall := readGroups_all 8 (Nat.le_of_eq hlen) (.inl rfl)
      rw [List.append_nil] at hall
      have hconcat : concat ip.toList [] = ip := by
        apply Vector.toList_inj.mp
        rw [toList_concat 0 (by simp), List.replicate_zero, List.nil_append, List.append_nil]
      rw [fmtSubslice_eq, parse]
      simp [hall, hconcat]

section Written

/-- A digit, or one of the two signs between the numbers. -/
def IsWritten (c : Char) : Prop := c = ':' ∨ c = '.' ∨ isDigit 16 c = true

theorem isWritten_toDigits {b : Nat} (hb : 1 < b) (h16 : b ≤ 16) (n : Nat) : ∀ c ∈ Nat.toDigits b n, IsWritten c := by
  intro c hc
  have hdigit : digitValue c < b := of_decide_eq_true (List.all_eq_true.mp (all_toDigits hb h16 n) c hc)
  exact .inr (.inr (decide_eq_true (Nat.lt_of_lt_of_le hdigit h16)))

theorem isWritten_joined (index : Nat) (groups : List UInt16) : ∀ c ∈ joined index groups, IsWritten c := by
  induction groups generalizing index with
  | nil => simp [joined]
  | cons group groups ih =>
      intro c hc
      rw [joined, List.mem_append, List.mem_append] at hc
      rcases hc with (hc | hc) | hc
      · split at hc
        · cases hc
        · exact .inl (List.mem_singleton.mp hc)
      · exact isWritten_toDigits (by decide) (by decide) group.toNat c hc
      · exact ih (index + 1) c hc

theorem isWritten_displayIpv4 (high low : UInt16) : ∀ c ∈ displayIpv4 high low, IsWritten c := by
  have hoctet : ∀ n, ∀ c ∈ Nat.toDigits 10 n, IsWritten c := isWritten_toDigits (by decide) (by decide)
  intro c hc
  simp only [displayIpv4, List.append_assoc, List.cons_append, List.mem_append, List.mem_cons] at hc
  rcases hc with hc | hc | hc | hc | hc | hc | hc
  · exact hoctet _ c hc
  · exact .inr (.inl hc)
  · exact hoctet _ c hc
  · exact .inr (.inl hc)
  · exact hoctet _ c hc
  · exact .inr (.inl hc)
  · exact hoctet _ c hc

theorem isWritten_display (ip : Segments) : ∀ c ∈ display ip, IsWritten c := by
  intro c hc
  rw [display] at hc
  split at hc
  · rcases List.mem_append.mp hc with hc | hc
    · have hstart : ∀ c ∈ "::ffff:".toList, c = ':' ∨ isDigit 16 c = true :=
        List.all_iff_forall_prop.mp (by decide)
      exact (hstart c hc).imp_right .inr
    · exact isWritten_displayIpv4 _ _ c hc
  · simp only [fmtSubslice_eq] at hc
    split at hc
    · rcases List.mem_append.mp hc with hc | hc
      · rcases List.mem_append.mp hc with hc | hc
        · exact isWritten_joined 0 _ c hc
        · have hgap : ∀ c ∈ "::".toList, c = ':' := List.all_iff_forall_prop.mp (by decide)
          exact .inl (hgap c hc)
      · exact isWritten_joined 0 _ c hc
    · exact isWritten_joined 0 _ c hc

end Written

end Rustgo.Ipv6
