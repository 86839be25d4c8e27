import Mathlib.Data.List.Induction
import Mathlib.Tactic.Ring

namespace Rustgo

abbrev Bytes := List UInt8

/-- The `w` bytes of `n` in network order. Higher digits are dropped, as a
cast to a `w`-byte word drops them. -/
def be : Nat → Nat → Bytes
  | 0, _ => []
  | w + 1, n => be w (n / 256) ++ [UInt8.ofNat n]

def ofBe (bytes : Bytes) : Nat := bytes.foldl (fun acc b => acc * 256 + b.toNat) 0

@[simp] theorem length_be (w n : Nat) : (be w n).length = w := by
  induction w generalizing n with
  | zero => rfl
  | succ w ih => simp [be, ih]

theorem ofBe_snoc (xs : Bytes) (b : UInt8) : ofBe (xs ++ [b]) = ofBe xs * 256 + b.toNat := by
  simp [ofBe]

theorem ofBe_be {w n : Nat} (h : n < 256 ^ w) : ofBe (be w n) = n := by
  induction w generalizing n with
  | zero => simp only [Nat.pow_zero, Nat.lt_one_iff] at h; subst h; rfl
  | succ w ih =>
      have hq : n / 256 < 256 ^ w := by
        rw [Nat.pow_succ] at h
        exact Nat.div_lt_of_lt_mul (by rwa [Nat.mul_comm] at h)
      have hb : (UInt8.ofNat n).toNat = n % 256 := by simp
      rw [be, ofBe_snoc, ih hq, hb]
      exact Nat.div_add_mod' n 256

theorem ofBe_lt (xs : Bytes) : ofBe xs < 256 ^ xs.length := by
  induction xs using List.reverseRecOn with
  | nil => decide
  | append_singleton xs b ih =>
      have hb : b.toNat < 256 := b.toNat_lt
      rw [ofBe_snoc, List.length_append, List.length_singleton, Nat.pow_succ]
      omega

theorem ofBe_injective {xs ys : Bytes} (hl : xs.length = ys.length) (h : ofBe xs = ofBe ys) : xs = ys := by
  induction xs using List.reverseRecOn generalizing ys with
  | nil => exact (List.length_eq_zero_iff.mp hl.symm).symm
  | append_singleton xs b ih =>
      cases ys using List.reverseRecOn with
      | nil => simp at hl
      | append_singleton ys c =>
          have hb : b.toNat < 256 := b.toNat_lt
          have hc : c.toNat < 256 := c.toNat_lt
          rw [ofBe_snoc, ofBe_snoc] at h
          have hlow : b = c := UInt8.toNat_inj.mp (by omega)
          have hhigh : xs = ys := ih (by simpa using hl) (by omega)
          rw [hlow, hhigh]

theorem be_injective {w m n : Nat} (hm : m < 256 ^ w) (hn : n < 256 ^ w)
    (h : be w m = be w n) : m = n := by
  have he := congrArg ofBe h
  rwa [ofBe_be hm, ofBe_be hn] at he

theorem be_uInt64_injective {m n : UInt64} (h : be 8 m.toNat = be 8 n.toNat) : m = n :=
  UInt64.toNat_inj.mp (be_injective m.toNat_lt n.toNat_lt h)

end Rustgo
