import Rustgo.Postcard

namespace Rustgo.Postcard

variable {α β : Type} {bytes rest : Bytes} {a : α}

namespace Format

/-- A reader that has found a value finds it also when more bytes follow, and
leaves them. -/
class Streams (f : Format α) : Prop where
  read_append : ∀ {bytes a rest}, f.read bytes = some (a, rest) → ∀ suffix, f.read (bytes ++ suffix) = some (a, rest ++ suffix)

theorem read_append {f : Format α} [Streams f] (h : f.read bytes = some (a, rest)) (suffix : Bytes) :
    f.read (bytes ++ suffix) = some (a, rest ++ suffix) := Streams.read_append h suffix

instance : Streams empty where
  read_append h suffix := by
    obtain ⟨rfl, rfl⟩ := Prod.mk.inj (Option.some.inj h)
    rfl

instance : Streams byte where
  read_append {bytes} _ _ h suffix := by
    cases bytes with
    | nil => cases h
    | cons b bytes =>
        obtain ⟨rfl, rfl⟩ := Prod.mk.inj (Option.some.inj h)
        rfl

instance (f : Format α) (g : Format β) [Streams f] [Streams g] : Streams (f.pair g) where
  read_append h suffix := by
    obtain ⟨⟨a, rest⟩, ha, h⟩ := Option.bind_eq_some_iff.mp h
    obtain ⟨⟨b, rest'⟩, hb, h⟩ := Option.bind_eq_some_iff.mp h
    obtain ⟨rfl, rfl⟩ := Prod.mk.inj (Option.some.inj h)
    simp only [pair, read_append ha, read_append hb, Option.bind_eq_bind, Option.bind_some]
    rfl

instance (f : Format α) (back : β → α) (make : α → Option β) (h : ∀ b, make (back b) = some b) [Streams f] :
    Streams (f.via back make h) where
  read_append hread suffix := by
    obtain ⟨⟨a, rest⟩, ha, hread⟩ := Option.bind_eq_some_iff.mp hread
    obtain ⟨b, hb, hread⟩ := Option.bind_eq_some_iff.mp hread
    obtain ⟨rfl, rfl⟩ := Prod.mk.inj (Option.some.inj hread)
    simp only [via, read_append ha, hb, Option.bind_eq_bind, Option.bind_some]
    rfl

instance (f : Format α) (back : β → α) (make : α → β) (h : ∀ b, make (back b) = b) [Streams f] :
    Streams (f.iso back make h) :=
  inferInstanceAs (Streams (f.via _ _ _))

instance (f : Format α) (w : Nat) (h : ∀ a, (f.write a).length ≤ w) [Streams f] : Streams (f.narrow w h) :=
  ⟨fun hread suffix => read_append (f := f) hread suffix⟩

theorem readVarint_append {last k n : Nat} (h : readVarint last k bytes = some (n, rest)) (suffix : Bytes) :
    readVarint last k (bytes ++ suffix) = some (n, rest ++ suffix) := by
  induction k generalizing bytes n with
  | zero => cases h
  | succ k ih =>
      cases bytes with
      | nil => cases h
      | cons b bytes =>
          rw [List.cons_append, readVarint]
          rw [readVarint] at h
          split at h
          · next hlow =>
            rw [if_pos hlow]
            split at h
            · cases h
            · next hlast =>
              obtain ⟨rfl, rfl⟩ := Prod.mk.inj (Option.some.inj h)
              rw [if_neg hlast]
          · next hhigh =>
            obtain ⟨⟨m, rest'⟩, hm, h⟩ := Option.bind_eq_some_iff.mp h
            obtain ⟨rfl, rfl⟩ := Prod.mk.inj (Option.some.inj h)
            rw [if_neg hhigh, ih hm]
            rfl

instance (last k : Nat) (hlast : last < 128) : Streams (word last k hlast) where
  read_append h suffix := by
    obtain ⟨⟨n, rest⟩, hn, h⟩ := Option.bind_eq_some_iff.mp h
    dsimp only at h
    split at h
    · next hlt =>
      obtain ⟨rfl, rfl⟩ := Prod.mk.inj (Option.some.inj h)
      simp only [word, readVarint_append hn, Option.bind_eq_bind, Option.bind_some, dif_pos hlt]
      rfl
    · cases h

instance : Streams u16 := inferInstanceAs (Streams (iso _ _ _ _))

instance : Streams u32 := inferInstanceAs (Streams (iso _ _ _ _))

instance : Streams u64 := inferInstanceAs (Streams (iso _ _ _ _))

instance : Streams bool := inferInstanceAs (Streams (via _ _ _ _))

instance (f : Format α) [Streams f] : Streams f.option where
  read_append {bytes} a _ h suffix := by
    cases bytes with
    | nil => cases h
    | cons b bytes =>
        simp only [option] at h ⊢
        rw [List.cons_append]
        split at h
        · next hzero =>
          obtain ⟨rfl, rfl⟩ := Prod.mk.inj (Option.some.inj h)
          simp only [hzero, if_true]
        · next hzero =>
          split at h
          · next hone =>
            obtain ⟨⟨a, rest⟩, ha, h⟩ := Option.bind_eq_some_iff.mp h
            obtain ⟨rfl, rfl⟩ := Prod.mk.inj (Option.some.inj h)
            simp only [if_neg hzero, if_pos hone, read_append ha, Option.bind_eq_bind, Option.bind_some]
            rfl
          · cases h

theorem take_append_suffix {n : Nat} {xs : Bytes} (h : take n bytes = some (xs, rest)) (suffix : Bytes) :
    take n (bytes ++ suffix) = some (xs, rest ++ suffix) := by
  rw [take] at h ⊢
  split at h
  · next hle =>
    obtain ⟨rfl, rfl⟩ := Prod.mk.inj (Option.some.inj h)
    rw [if_pos (by rw [List.length_append]; omega), List.take_append_of_le_length hle, List.drop_append_of_le_length hle]
  · cases h

instance (n : Nat) : Streams (array n) where
  read_append h suffix := by
    obtain ⟨⟨xs, rest⟩, hxs, h⟩ := Option.bind_eq_some_iff.mp h
    dsimp only at h
    split at h
    · next hl =>
      obtain ⟨rfl, rfl⟩ := Prod.mk.inj (Option.some.inj h)
      simp only [array, take_append_suffix hxs, Option.bind_eq_bind, Option.bind_some, dif_pos hl]
      rfl
    · cases h

theorem readLength_append {n : Nat} (h : readLength bytes = some (n, rest)) (suffix : Bytes) :
    readLength (bytes ++ suffix) = some (n, rest ++ suffix) := readVarint_append h suffix

instance (max : Nat) (hmax : max < 2 ^ 64) : Streams (Format.bytes max hmax) where
  read_append h suffix := by
    obtain ⟨⟨n, rest⟩, hn, h⟩ := Option.bind_eq_some_iff.mp h
    obtain ⟨⟨xs, rest'⟩, hxs, h⟩ := Option.bind_eq_some_iff.mp h
    dsimp only at h
    split at h
    · next hle =>
      obtain ⟨rfl, rfl⟩ := Prod.mk.inj (Option.some.inj h)
      simp only [Format.bytes, readLength_append hn, take_append_suffix hxs, Option.bind_eq_bind, Option.bind_some,
        dif_pos hle]
      rfl
    · cases h

instance (max : Nat) (hmax : max < 2 ^ 64) : Streams (string max hmax) := inferInstanceAs (Streams (via _ _ _ _))

theorem readMany_append (f : Format α) [Streams f] {n : Nat} {as : List α} (h : readMany f n bytes = some (as, rest))
    (suffix : Bytes) : readMany f n (bytes ++ suffix) = some (as, rest ++ suffix) := by
  induction n generalizing bytes as with
  | zero =>
      obtain ⟨rfl, rfl⟩ := Prod.mk.inj (Option.some.inj h)
      rfl
  | succ n ih =>
      obtain ⟨⟨a, rest'⟩, ha, h⟩ := Option.bind_eq_some_iff.mp h
      obtain ⟨⟨as', rest''⟩, has, h⟩ := Option.bind_eq_some_iff.mp h
      obtain ⟨rfl, rfl⟩ := Prod.mk.inj (Option.some.inj h)
      simp only [readMany, read_append ha, ih has, Option.bind_eq_bind, Option.bind_some]
      rfl

instance (f : Format α) (max : Nat) (hmax : max < 2 ^ 64) [Streams f] : Streams (f.seq max hmax) where
  read_append h suffix := by
    obtain ⟨⟨n, rest⟩, hn, h⟩ := Option.bind_eq_some_iff.mp h
    dsimp only at h
    split at h
    · next hle =>
      obtain ⟨⟨xs, rest'⟩, hxs, h⟩ := Option.bind_eq_some_iff.mp h
      dsimp only at h
      split at h
      · next hlen =>
        obtain ⟨rfl, rfl⟩ := Prod.mk.inj (Option.some.inj h)
        simp only [seq, readLength_append hn, Option.bind_eq_bind, Option.bind_some, if_pos hle, readMany_append f hxs,
          dif_pos hlen]
        rfl
      · cases h
    · cases h

instance (n : Nat) (hn : n ≤ 128) : Streams (variant n hn) := inferInstanceAs (Streams (narrow _ _ _))

end Format

end Rustgo.Postcard
