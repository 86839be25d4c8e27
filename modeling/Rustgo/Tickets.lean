import Mathlib.Logic.Function.Basic

namespace Rustgo.Tickets

variable {ι : Type} {held : ι → Option Nat} {lo hi k : Nat} {i : ι}

/-- The numbers from `lo` up to `hi` are held, each by one holder. -/
structure Held (held : ι → Option Nat) (lo hi : Nat) : Prop where
  bounds : ∀ i k, held i = some k → lo ≤ k ∧ k < hi
  covered : ∀ k, lo ≤ k → k < hi → ∃ i, held i = some k
  unique : ∀ i j k, held i = some k → held j = some k → i = j

theorem held_none (lo : Nat) : Held (fun _ : ι => none) lo lo where
  bounds _ _ h := nomatch h
  covered _ hlo hhi := absurd hhi (Nat.not_lt.mpr hlo)
  unique _ _ _ h := nomatch h

/-- Whoever holds the lowest number holds the first. -/
theorem Held.first (h : Held held lo hi) (hk : held i = some k) (hmin : ∀ j k', held j = some k' → k ≤ k') : k = lo := by
  obtain ⟨hlo, hhi⟩ := h.bounds i k hk
  obtain ⟨j, hj⟩ := h.covered lo (Nat.le_refl lo) (Nat.lt_of_le_of_lt hlo hhi)
  exact Nat.le_antisymm (hmin j lo hj) hlo

variable [DecidableEq ι]

theorem Held.issue (h : Held held lo hi) (hle : lo ≤ hi) (hi' : held i = none) :
    Held (Function.update held i (some hi)) lo (hi + 1) where
  bounds j k hj := by
    by_cases hji : j = i
    · subst hji
      obtain rfl : hi = k := by simpa using hj
      exact ⟨hle, Nat.lt_succ_self hi⟩
    · rw [Function.update_of_ne hji] at hj
      obtain ⟨hlo, hhi⟩ := h.bounds j k hj
      exact ⟨hlo, Nat.lt_succ_of_lt hhi⟩
  covered k hlo hhi := by
    rcases Nat.lt_succ_iff_lt_or_eq.mp hhi with hlt | rfl
    · obtain ⟨j, hj⟩ := h.covered k hlo hlt
      have hji : j ≠ i := by
        rintro rfl
        simp [hi'] at hj
      exact ⟨j, by rw [Function.update_of_ne hji, hj]⟩
    · exact ⟨i, Function.update_self ..⟩
  unique j j' k hj hj' := by
    by_cases hji : j = i <;> by_cases hji' : j' = i
    · exact hji.trans hji'.symm
    · subst hji
      rw [Function.update_of_ne hji'] at hj'
      obtain rfl : hi = k := by simpa using hj
      exact absurd (h.bounds j' hi hj').2 (Nat.lt_irrefl hi)
    · subst hji'
      rw [Function.update_of_ne hji] at hj
      obtain rfl : hi = k := by simpa using hj'
      exact absurd (h.bounds j hi hj).2 (Nat.lt_irrefl hi)
    · rw [Function.update_of_ne hji] at hj
      rw [Function.update_of_ne hji'] at hj'
      exact h.unique j j' k hj hj'

theorem Held.redeem (h : Held held lo hi) (hk : held i = some lo) : Held (Function.update held i none) (lo + 1) hi where
  bounds j k hj := by
    have hji : j ≠ i := fun heq => by simp [heq] at hj
    rw [Function.update_of_ne hji] at hj
    obtain ⟨hlo, hhi⟩ := h.bounds j k hj
    have hne : lo ≠ k := fun heq => hji (h.unique j i k hj (heq ▸ hk))
    exact ⟨Nat.lt_of_le_of_ne hlo hne, hhi⟩
  covered k hlo hhi := by
    obtain ⟨j, hj⟩ := h.covered k (Nat.le_of_succ_le hlo) hhi
    have hji : j ≠ i := by
      rintro rfl
      have heq : lo = k := Option.some.inj (hk.symm.trans hj)
      exact Nat.lt_irrefl k (heq ▸ hlo)
    exact ⟨j, by rw [Function.update_of_ne hji, hj]⟩
  unique j j' k hj hj' := by
    have hji : j ≠ i := fun heq => by simp [heq] at hj
    have hji' : j' ≠ i := fun heq => by simp [heq] at hj'
    rw [Function.update_of_ne hji] at hj
    rw [Function.update_of_ne hji'] at hj'
    exact h.unique j j' k hj hj'

end Rustgo.Tickets
