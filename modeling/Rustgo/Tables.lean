import Mathlib.Data.Finmap
import Mathlib.Data.Finset.Max
import Mathlib.Algebra.BigOperators.Group.Multiset.Basic

namespace Rustgo.Tables

/-- A finite map, in no particular order. -/
abbrev Table (K V : Type) := Finmap fun _ : K => V

section Total

variable {K V : Type} {f : K → V → Nat}

def total (f : K → V → Nat) (m : Table K V) : Nat := (m.entries.map fun e => f e.1 e.2).sum

def len (m : Table K V) : Nat := m.entries.card

theorem len_eq_total (m : Table K V) : len m = total (fun _ _ => 1) m := by
  simp [len, total]

variable [DecidableEq K] {m : Table K V} {k : K} {v w : V}

theorem total_insert (h : k ∉ m) : total f (m.insert k v) = f k v + total f m := by
  simp [total, Finmap.entries_insert_of_notMem h]

theorem insert_erase (h : m.lookup k = some v) : (m.erase k).insert k v = m := by
  apply Finmap.ext_lookup
  intro x
  by_cases hx : x = k
  · rw [hx, Finmap.lookup_insert, h]
  · rw [Finmap.lookup_insert_of_ne _ hx, Finmap.lookup_erase_ne hx]

theorem erase_insert : (m.insert k v).erase k = m.erase k := by
  apply Finmap.ext_lookup
  intro x
  by_cases hx : x = k
  · rw [hx, Finmap.lookup_erase, Finmap.lookup_erase]
  · rw [Finmap.lookup_erase_ne hx, Finmap.lookup_insert_of_ne _ hx, Finmap.lookup_erase_ne hx]

theorem total_erase (h : m.lookup k = some v) : total f m = f k v + total f (m.erase k) := by
  conv => lhs; rw [← insert_erase h]
  exact total_insert Finmap.notMem_erase_self

theorem total_replace (h : m.lookup k = some v) : total f (m.insert k w) + f k v = total f m + f k w := by
  have hw : (m.insert k w).lookup k = some w := Finmap.lookup_insert m
  rw [total_erase hw, erase_insert, total_erase h]
  omega

theorem len_insert (h : k ∉ m) : len (m.insert k v) = 1 + len m := by
  rw [len_eq_total, len_eq_total, total_insert h]

theorem len_erase_le (m : Table K V) (k : K) : len (m.erase k) ≤ len m := by
  cases h : m.lookup k with
  | none =>
      have herase : m.erase k = m := by
        apply Finmap.ext_lookup
        intro x
        by_cases hx : x = k
        · rw [hx, Finmap.lookup_erase, h]
        · rw [Finmap.lookup_erase_ne hx]
      rw [herase]
  | some v =>
      rw [len_eq_total, len_eq_total, total_erase h]
      exact Nat.le_add_left _ _

theorem len_erase (h : m.lookup k = some v) : len m = 1 + len (m.erase k) := by
  rw [len_eq_total, len_eq_total, total_erase h]

theorem len_replace (h : m.lookup k = some v) : len (m.insert k w) = len m := by
  have hreplace := total_replace (f := fun _ _ => 1) (w := w) h
  rw [← len_eq_total, ← len_eq_total] at hreplace
  exact Nat.add_right_cancel hreplace

theorem len_insert_le (m : Table K V) (k : K) (v : V) : len (m.insert k v) ≤ 1 + len m := by
  by_cases h : k ∈ m
  · obtain ⟨old, hold⟩ := Finmap.mem_iff.mp h
    exact (len_replace hold).trans_le (Nat.le_add_left _ _)
  · exact (len_insert h).le

theorem lookup_erase_eq_some {k' : K} (h : (m.erase k).lookup k' = some v) : k' ≠ k ∧ m.lookup k' = some v := by
  have hne : k' ≠ k := by
    rintro rfl
    rw [Finmap.lookup_erase] at h
    cases h
  rw [Finmap.lookup_erase_ne hne] at h
  exact ⟨hne, h⟩

theorem le_total (f : K → V → Nat) (h : m.lookup k = some v) : f k v ≤ total f m := by
  rw [total_erase h]
  exact Nat.le_add_right _ _

end Total

section Keep

variable {K V : Type}

/-- The entries that satisfy a condition. -/
def keep (p : K → V → Bool) (m : Table K V) : Table K V :=
  ⟨m.entries.filter fun e => p e.1 e.2, by
    obtain ⟨entries, h⟩ := m
    induction entries using Quot.inductionOn with
    | h l => exact List.NodupKeys.sublist List.filter_sublist h⟩

variable [DecidableEq K] {p : K → V → Bool} {m : Table K V} {k : K} {v : V}

theorem lookup_keep_eq_some : (keep p m).lookup k = some v ↔ m.lookup k = some v ∧ p k v = true := by
  rw [Finmap.lookup_eq_some_iff, Finmap.lookup_eq_some_iff]
  exact Multiset.mem_filter

theorem len_keep_le (p : K → V → Bool) (m : Table K V) : len (keep p m) ≤ len m :=
  Multiset.card_le_card (Multiset.filter_le _ _)

theorem len_keep_lt (h : m.lookup k = some v) (hp : p k v = false) : len (keep p m) < len m := by
  refine Multiset.card_lt_card (lt_of_le_of_ne (Multiset.filter_le _ _) fun heq => ?_)
  have hall := Multiset.filter_eq_self.mp heq ⟨k, v⟩ (Finmap.lookup_eq_some_iff.mp h)
  exact Bool.false_ne_true (hp.symm.trans hall)

theorem lookup_keep (p : K → V → Bool) (m : Table K V) (k : K) : (keep p m).lookup k = (m.lookup k).filter (p k) := by
  apply Option.ext
  intro v
  rw [lookup_keep_eq_some, Option.filter_eq_some_iff]

end Keep

section Update

variable {K V : Type}

/-- Every value rewritten in place. -/
def update (f : K → V → V) (m : Table K V) : Table K V :=
  ⟨m.entries.map fun e => ⟨e.1, f e.1 e.2⟩, by
    obtain ⟨entries, h⟩ := m
    induction entries using Quot.inductionOn with
    | h l =>
        have hkeys : (l.map fun e : Sigma fun _ : K => V => (⟨e.1, f e.1 e.2⟩ : Sigma fun _ : K => V)).keys = l.keys := by
          simp [List.keys]
        have hnodup : (List.keys (l.map fun e : Sigma fun _ : K => V => (⟨e.1, f e.1 e.2⟩ : Sigma fun _ : K => V))).Nodup := by
          rw [hkeys]
          exact h
        exact hnodup⟩

variable [DecidableEq K]

theorem lookup_update (f : K → V → V) (m : Table K V) (k : K) : (update f m).lookup k = (m.lookup k).map (f k) := by
  apply Option.ext
  intro v
  rw [Finmap.lookup_eq_some_iff, Option.map_eq_some_iff]
  constructor
  · intro h
    obtain ⟨e, he, hkv⟩ := Multiset.mem_map.mp h
    obtain ⟨rfl, hv⟩ := Sigma.mk.inj hkv
    exact ⟨e.2, Finmap.lookup_eq_some_iff.mpr he, eq_of_heq hv⟩
  · rintro ⟨w, hw, rfl⟩
    exact Multiset.mem_map.mpr ⟨⟨k, w⟩, Finmap.lookup_eq_some_iff.mp hw, rfl⟩

end Update

section First

variable {α : Type} [LinearOrder α]

/-- The least element of an ordered set. -/
def first? (s : Finset α) : Option α := if h : s.Nonempty then some (s.min' h) else none

theorem first?_mem {s : Finset α} {a : α} (h : first? s = some a) : a ∈ s := by
  unfold first? at h
  split at h
  · next hs =>
    rw [← Option.some.inj h]
    exact s.min'_mem hs
  · exact absurd h (by simp)

theorem first?_eq_none {s : Finset α} (h : first? s = none) : s = ∅ := by
  unfold first? at h
  split at h
  · cases h
  · next hs => exact Finset.not_nonempty_iff_eq_empty.mp hs

/-- The `n` least elements in ascending order. -/
def smallest : Nat → Finset α → List α
  | 0, _ => []
  | n + 1, s =>
      match first? s with
      | none => []
      | some a => a :: smallest n (s.erase a)

theorem mem_of_mem_smallest {n : Nat} {s : Finset α} {a : α} (h : a ∈ smallest n s) : a ∈ s := by
  induction n generalizing s with
  | zero => cases h
  | succ n ih =>
      rw [smallest] at h
      split at h
      · cases h
      case h_2 b hb =>
          obtain rfl | h := List.mem_cons.mp h
          · exact first?_mem hb
          · exact Finset.mem_of_mem_erase (ih h)

theorem first?_le {s : Finset α} {a : α} (h : first? s = some a) {b : α} (hb : b ∈ s) : a ≤ b := by
  unfold first? at h
  split at h
  · next hs =>
    rw [← Option.some.inj h]
    exact s.min'_le b hb
  · cases h

/-- What is below one of the least elements is among them. -/
theorem mem_smallest_of_le {n : Nat} {s : Finset α} {a b : α} (ha : a ∈ smallest n s) (hb : b ∈ s) (hba : b ≤ a) :
    b ∈ smallest n s := by
  induction n generalizing s with
  | zero => cases ha
  | succ n ih =>
      cases hc : first? s with
      | none => simp [smallest, hc] at ha
      | some c =>
          simp only [smallest, hc] at ha ⊢
          by_cases hbc : b = c
          · exact hbc ▸ List.mem_cons_self
          · rcases List.mem_cons.mp ha with rfl | ha
            · exact absurd (le_antisymm hba (first?_le hc hb)) hbc
            · exact List.mem_cons_of_mem _ (ih ha (Finset.mem_erase.mpr ⟨hbc, hb⟩))

theorem length_smallest_le (n : Nat) (s : Finset α) : (smallest n s).length ≤ n := by
  induction n generalizing s with
  | zero => exact Nat.le_refl 0
  | succ n ih =>
      rw [smallest]
      split
      · exact Nat.zero_le _
      · exact Nat.succ_le_succ (ih _)

theorem smallest_eq_nil {n : Nat} {s : Finset α} : smallest n s = [] ↔ n = 0 ∨ s = ∅ := by
  cases n with
  | zero => simp [smallest]
  | succ n =>
      rw [smallest, first?]
      by_cases h : s.Nonempty
      · simp [h, h.ne_empty]
      · simp [h, Finset.not_nonempty_iff_eq_empty.mp h]

end First

end Rustgo.Tables
