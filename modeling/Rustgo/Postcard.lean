import Rustgo.Bytes

namespace Rustgo.Postcard

variable {α β : Type}

/-- Seven bits a byte, lowest first, in at most `k` bytes. -/
def varint : Nat → Nat → Bytes
  | 0, _ => []
  | k + 1, n => if n < 128 then [UInt8.ofNat n] else UInt8.ofNat (n % 128 + 128) :: varint k (n / 128)

/-- Reads at most `k` bytes; the `k`-th one may not exceed `last`, so that the
value fits its word. Longer spellings than the shortest one are accepted. -/
def readVarint (last : Nat) : Nat → Bytes → Option (Nat × Bytes)
  | 0, _ => none
  | _ + 1, [] => none
  | k + 1, b :: rest =>
      if b.toNat < 128 then
        if k = 0 ∧ last < b.toNat then none else some (b.toNat, rest)
      else do
        let (m, rest) ← readVarint last k rest
        pure (b.toNat - 128 + 128 * m, rest)

theorem varint_length_le (k n : Nat) : (varint k n).length ≤ k := by
  induction k generalizing n with
  | zero => simp [varint]
  | succ k ih =>
      rw [varint]
      split
      · simp
      · simpa using ih (n / 128)

theorem varint_length_of_lt {j : Nat} (hj : 0 < j) {n : Nat} (hn : n < 128 ^ j) (k : Nat) :
    (varint k n).length ≤ j := by
  induction j generalizing n k with
  | zero => exact absurd hj (by decide)
  | succ j ih =>
      cases k with
      | zero => simp [varint]
      | succ k =>
          rw [varint]
          split
          · simp
          · next hbig =>
            have hq : n / 128 < 128 ^ j := by
              rw [Nat.pow_succ] at hn
              exact Nat.div_lt_of_lt_mul (by rwa [Nat.mul_comm] at hn)
            have hpos : 0 < j := by
              by_contra hzero
              have hz : j = 0 := by omega
              rw [hz, Nat.pow_zero] at hq
              omega
            simpa using ih hpos hq k

theorem readVarint_varint {last k n : Nat} (hlast : last < 128) (hn : n < 128 ^ k * (last + 1))
    (rest : Bytes) : readVarint last (k + 1) (varint (k + 1) n ++ rest) = some (n, rest) := by
  induction k generalizing n with
  | zero =>
      have hlt : n < 128 := by omega
      have hb : (UInt8.ofNat n).toNat = n := by simp; omega
      have hle : ¬last < n := by omega
      simp [varint, readVarint, hlt, hb, hle]
  | succ k ih =>
      by_cases hlt : n < 128
      · have hb : (UInt8.ofNat n).toNat = n := by simp; omega
        simp [varint, readVarint, hlt, hb]
      · have hb : (UInt8.ofNat (n % 128 + 128)).toNat = n % 128 + 128 := by simp; omega
        have hq : n / 128 < 128 ^ k * (last + 1) := by
          rw [Nat.pow_succ, Nat.mul_comm (128 ^ k) 128, Nat.mul_assoc] at hn
          exact Nat.div_lt_of_lt_mul hn
        have hge : ¬n % 128 + 128 < 128 := by omega
        rw [varint, if_neg hlt, List.cons_append, readVarint, hb, if_neg hge, ih hq]
        simp only [Option.bind_eq_bind, Option.bind_some, pure, Option.some.injEq, Prod.mk.injEq, and_true]
        omega

/-- A writer with its reader and the number of bytes a value takes at most. -/
structure Format (α : Type) where
  write : α → Bytes
  read : Bytes → Option (α × Bytes)
  width : Nat
  read_write : ∀ a rest, read (write a ++ rest) = some (a, rest)
  write_length : ∀ a, (write a).length ≤ width

namespace Format

def empty : Format Unit where
  write _ := []
  read bytes := some ((), bytes)
  width := 0
  read_write _ _ := rfl
  write_length _ := Nat.le_refl _

def byte : Format UInt8 where
  write b := [b]
  read
    | [] => none
    | b :: rest => some (b, rest)
  width := 1
  read_write _ _ := rfl
  write_length _ := Nat.le_refl _

def pair (f : Format α) (g : Format β) : Format (α × β) where
  write p := f.write p.1 ++ g.write p.2
  read bytes := do
    let (a, rest) ← f.read bytes
    let (b, rest) ← g.read rest
    pure ((a, b), rest)
  width := f.width + g.width
  read_write p rest := by
    simp only [List.append_assoc, f.read_write, g.read_write, Option.bind_eq_bind, Option.bind_some]
    rfl
  write_length p := by
    rw [List.length_append]
    exact Nat.add_le_add (f.write_length p.1) (g.write_length p.2)

/-- A type whose values are read through a partial conversion, such as a check
the deserializer makes. -/
def via (f : Format α) (back : β → α) (make : α → Option β) (h : ∀ b, make (back b) = some b) : Format β where
  write b := f.write (back b)
  read bytes := do
    let (a, rest) ← f.read bytes
    let b ← make a
    pure (b, rest)
  width := f.width
  read_write b rest := by
    simp only [f.read_write, Option.bind_eq_bind, Option.bind_some, h]
    rfl
  write_length b := f.write_length (back b)

def iso (f : Format α) (back : β → α) (make : α → β) (h : ∀ b, make (back b) = b) : Format β :=
  f.via back (fun a => some (make a)) (fun b => congrArg some (h b))

def narrow (f : Format α) (w : Nat) (h : ∀ a, (f.write a).length ≤ w) : Format α :=
  { f with width := w, write_length := h }

def word (last k : Nat) (hlast : last < 128) : Format (Fin (128 ^ k * (last + 1))) where
  write n := varint (k + 1) n.val
  read bytes := do
    let (n, rest) ← readVarint last (k + 1) bytes
    if h : n < 128 ^ k * (last + 1) then pure (⟨n, h⟩, rest) else none
  width := k + 1
  read_write n rest := by
    simp [readVarint_varint hlast n.isLt rest, n.isLt]
  write_length n := varint_length_le (k + 1) n.val

def u16 : Format UInt16 :=
  (word 3 2 (by decide)).iso (fun v => ⟨v.toNat, v.toNat_lt⟩) (fun n => UInt16.ofNat n.val)
    (fun v => by simp)

def u32 : Format UInt32 :=
  (word 15 4 (by decide)).iso (fun v => ⟨v.toNat, v.toNat_lt⟩) (fun n => UInt32.ofNat n.val)
    (fun v => by simp)

def u64 : Format UInt64 :=
  (word 1 9 (by decide)).iso (fun v => ⟨v.toNat, v.toNat_lt⟩) (fun n => UInt64.ofNat n.val)
    (fun v => by simp)

def bool : Format Bool :=
  byte.via (fun b => if b then 1 else 0)
    (fun b => if b = 0 then some false else if b = 1 then some true else none)
    (fun b => by cases b <;> rfl)

def option (f : Format α) : Format (Option α) where
  write
    | none => [0]
    | some a => 1 :: f.write a
  read
    | [] => none
    | b :: rest =>
        if b = 0 then some (none, rest)
        else if b = 1 then do
          let (a, rest) ← f.read rest
          pure (some a, rest)
        else none
  width := 1 + f.width
  read_write a rest := by
    cases a with
    | none => rfl
    | some a => simp [f.read_write]
  write_length a := by
    cases a with
    | none => simp
    | some a =>
        have := f.write_length a
        simp only [List.length_cons]
        omega

def take (n : Nat) (bytes : Bytes) : Option (Bytes × Bytes) :=
  if n ≤ bytes.length then some (bytes.take n, bytes.drop n) else none

theorem take_append (xs rest : Bytes) : take xs.length (xs ++ rest) = some (xs, rest) := by
  simp [take]

def array (n : Nat) : Format (Vector UInt8 n) where
  write v := v.toList
  read bytes := do
    let (xs, rest) ← take n bytes
    if h : xs.length = n then pure (⟨xs.toArray, by simpa using h⟩, rest) else none
  width := n
  read_write v rest := by
    have hl : v.toList.length = n := by simp
    have ht : take n (v.toList ++ rest) = some (v.toList, rest) := by
      simpa only [hl] using take_append v.toList rest
    have hv : v.toList.toArray = v.toArray := by simp [Vector.toList]
    rw [ht]
    simp [hv]
  write_length v := by simp

/-- The bytes that a length of at most `max` takes. -/
def lengthWidth (max : Nat) : Nat :=
  if max < 128 then 1 else if max < 128 ^ 2 then 2 else if max < 128 ^ 3 then 3 else 10

def length (n : Nat) : Bytes := varint 10 n

theorem length_length {n max : Nat} (h : n ≤ max) : (length n).length ≤ lengthWidth max := by
  rw [lengthWidth]
  split
  · exact varint_length_of_lt (by decide) (by omega) _
  · split
    · exact varint_length_of_lt (by decide) (by omega) _
    · split
      · exact varint_length_of_lt (by decide) (by omega) _
      · exact varint_length_le 10 n

def readLength : Bytes → Option (Nat × Bytes) := readVarint 1 10

theorem readLength_length {n : Nat} (h : n < 2 ^ 64) (rest : Bytes) :
    readLength (length n ++ rest) = some (n, rest) :=
  readVarint_varint (by decide) (by omega) rest

def bytes (max : Nat) (hmax : max < 2 ^ 64) : Format { xs : Bytes // xs.length ≤ max } where
  write xs := length xs.val.length ++ xs.val
  read input := do
    let (n, rest) ← readLength input
    let (xs, rest) ← take n rest
    if h : xs.length ≤ max then pure (⟨xs, h⟩, rest) else none
  width := lengthWidth max + max
  read_write xs rest := by
    have hlt : xs.val.length < 2 ^ 64 := Nat.lt_of_le_of_lt xs.property hmax
    simp [List.append_assoc, readLength_length hlt, take_append, xs.property]
  write_length xs := by
    rw [List.length_append]
    exact Nat.add_le_add (length_length xs.property) xs.property

def decodeUtf8 (xs : Bytes) : Option String := String.fromUTF8? ⟨xs.toArray⟩

def utf8 (s : String) : Bytes := s.toByteArray.data.toList

theorem decodeUtf8_utf8 (s : String) : decodeUtf8 (utf8 s) = some s := by
  have hb : (⟨(utf8 s).toArray⟩ : ByteArray) = s.toByteArray := by simp [utf8]
  rw [decodeUtf8, hb, String.fromUTF8?, dif_pos s.isValidUTF8]
  rfl

theorem utf8_of_decodeUtf8 {xs : Bytes} {s : String} (h : decodeUtf8 xs = some s) : utf8 s = xs := by
  rw [decodeUtf8, String.fromUTF8?] at h
  split at h
  · obtain rfl := Option.some.inj h
    rfl
  · cases h

def string (max : Nat) (hmax : max < 2 ^ 64) : Format { s : String // s.utf8ByteSize ≤ max } :=
  (bytes max hmax).via (fun s => ⟨utf8 s.val, s.property⟩)
    (fun xs => (decodeUtf8 xs.val).bind fun s => if h : s.utf8ByteSize ≤ max then some ⟨s, h⟩ else none)
    (fun s => by simp [decodeUtf8_utf8, s.property])

def readMany (f : Format α) : Nat → Bytes → Option (List α × Bytes)
  | 0, input => some ([], input)
  | n + 1, input => do
      let (a, rest) ← f.read input
      let (as, rest) ← readMany f n rest
      pure (a :: as, rest)

theorem readMany_write (f : Format α) (xs : List α) (rest : Bytes) :
    readMany f xs.length (xs.flatMap f.write ++ rest) = some (xs, rest) := by
  induction xs with
  | nil => rfl
  | cons x xs ih =>
      simp only [List.length_cons, readMany, List.flatMap_cons, List.append_assoc, f.read_write, ih,
        Option.bind_eq_bind, Option.bind_some]
      rfl

theorem flatMap_write_length (f : Format α) (xs : List α) :
    (xs.flatMap f.write).length ≤ xs.length * f.width := by
  induction xs with
  | nil => simp
  | cons x xs ih =>
      rw [List.flatMap_cons, List.length_append, List.length_cons, Nat.succ_mul]
      have := f.write_length x
      omega

/-- A counted sequence. A count over the bound is refused before any element
is read. -/
def seq (f : Format α) (max : Nat) (hmax : max < 2 ^ 64) : Format { xs : List α // xs.length ≤ max } where
  write xs := length xs.val.length ++ xs.val.flatMap f.write
  read input := do
    let (n, rest) ← readLength input
    if n ≤ max then do
      let (xs, rest) ← readMany f n rest
      if h : xs.length ≤ max then pure (⟨xs, h⟩, rest) else none
    else none
  width := lengthWidth max + max * f.width
  read_write xs rest := by
    have hlt : xs.val.length < 2 ^ 64 := Nat.lt_of_le_of_lt xs.property hmax
    simp [List.append_assoc, readLength_length hlt, readMany_write, xs.property]
  write_length xs := by
    rw [List.length_append]
    exact Nat.add_le_add (length_length xs.property)
      ((flatMap_write_length f xs.val).trans (Nat.mul_le_mul_right _ xs.property))

/-- The index of a variant, for the `n` variants of an enumeration. -/
def variant (n : Nat) (hn : n ≤ 128) : Format (Fin n) :=
  (u32.via (fun i => UInt32.ofNat i.val)
    (fun v => if h : v.toNat < n then some ⟨v.toNat, h⟩ else none) (fun i => by
      have hi := i.isLt
      have hv : (UInt32.ofNat i.val).toNat = i.val := by simp; omega
      simp [hv, hi])).narrow 1 (fun i => by
        have hi := i.isLt
        have hv : (UInt32.ofNat i.val).toNat = i.val := by simp; omega
        change (varint 5 (UInt32.ofNat i.val).toNat).length ≤ 1
        rw [hv]
        exact varint_length_of_lt (by decide) (by omega) 5)

end Format

end Rustgo.Postcard
