import Rustgo.Checks
import Mathlib.Computability.Language

namespace Rustgo.Languages

open Checks Computability

variable {S α ε : Type} {P : α → Prop} {L : Language α} {a : α} {w : List α}

/-- The words of one letter that satisfies `P`. -/
def letters (P : α → Prop) : Language α := {w | ∃ a, P a ∧ w = [a]}

theorem singleton_mem_letters (h : P a) : [a] ∈ letters P := ⟨a, h, rfl⟩

theorem cons_mem_letters_mul : a :: w ∈ letters P * L ↔ P a ∧ w ∈ L := by
  constructor
  · intro h
    obtain ⟨_, ⟨b, hb, rfl⟩, u, hu, heq⟩ := Language.mem_mul.mp h
    obtain ⟨rfl, rfl⟩ := List.cons.inj heq
    exact ⟨hb, hu⟩
  · rintro ⟨ha, hw⟩
    exact Language.append_mem_mul (singleton_mem_letters ha) hw

theorem cons_mem_letters : a :: w ∈ letters P ↔ P a ∧ w = [] := by
  rw [← Language.mem_one, ← cons_mem_letters_mul, mul_one]

theorem kstar_mul (L M : Language α) : L∗ * M = M + L * (L∗ * M) :=
  calc
    L∗ * M = (1 + L * L∗) * M := by rw [Language.one_add_self_mul_kstar_eq_kstar]
    _ = M + L * (L∗ * M) := by rw [add_mul, one_mul, mul_assoc]

theorem cons_mem_kstar_mul : a :: w ∈ (letters P)∗ * L ↔ P a ∧ w ∈ (letters P)∗ * L ∨ a :: w ∈ L := by
  nth_rewrite 1 [kstar_mul]
  rw [Language.mem_add, cons_mem_letters_mul, or_comm]

theorem cons_mem_kstar : a :: w ∈ (letters P)∗ ↔ P a ∧ w ∈ (letters P)∗ := by
  rw [← mul_one (letters P)∗, cons_mem_kstar_mul, Language.mem_one]
  exact or_iff_left (List.cons_ne_nil a w)

/-- From every state, the words that remain to be read: there is one, and what
follows a letter is what remains after the step for it. -/
structure Remaining (step : S → α → Except ε S) (L : S → Language α) : Prop where
  inhabited : ∀ s, ∃ w, w ∈ L s
  cons : ∀ s a w, a :: w ∈ L s ↔ ∃ t, step s a = .ok t ∧ w ∈ L t

/-- A partial machine gets through the beginnings of its words, and through nothing else. -/
theorem Remaining.foldlM_ok_iff {step : S → α → Except ε S} {L : S → Language α} (h : Remaining step L) (s : S)
    (w : List α) : (∃ t, w.foldlM step s = .ok t) ↔ ∃ u ∈ L s, w <+: u := by
  induction w generalizing s with
  | nil =>
      obtain ⟨u, hu⟩ := h.inhabited s
      exact ⟨fun _ => ⟨u, hu, List.nil_prefix⟩, fun _ => ⟨s, rfl⟩⟩
  | cons a w ih =>
      rw [List.foldlM_cons]
      constructor
      · rintro ⟨t, ht⟩
        obtain ⟨r, hr, hrest⟩ := bind_eq_ok.mp ht
        obtain ⟨u, hu, hprefix⟩ := (ih r).mp ⟨t, hrest⟩
        exact ⟨a :: u, (h.cons s a u).mpr ⟨r, hr, hu⟩, List.cons_prefix_cons.mpr ⟨rfl, hprefix⟩⟩
      · rintro ⟨u, hu, hprefix⟩
        obtain ⟨v, rfl, hv⟩ := List.cons_prefix_iff.mp hprefix
        obtain ⟨r, hr, hrest⟩ := (h.cons s a v).mp hu
        obtain ⟨t, ht⟩ := (ih r).mpr ⟨v, hrest, hv⟩
        exact ⟨t, bind_eq_ok.mpr ⟨r, hr, ht⟩⟩

end Rustgo.Languages
