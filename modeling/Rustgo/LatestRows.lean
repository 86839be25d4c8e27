import Rustgo.Tables

namespace Rustgo.LatestRows

open Tables

/-- How the rows of a table are grouped and ordered, and the flag that belongs on the newest rows of each group. -/
structure Ranking (K V G O : Type) where
  group : K → V → Option G
  rank : K → V → O
  flag : V → Bool
  mark : V → Bool → V
  flag_mark : ∀ v b, flag (mark v b) = b
  group_mark : ∀ k v b, group k (mark v b) = group k v
  rank_mark : ∀ k v b, rank k (mark v b) = rank k v

namespace Ranking

variable {K V G O : Type} [DecidableEq K] [LinearOrder O] (R : Ranking K V G O)

/-- No row of the group ranks higher. -/
def Newest (m : Table K V) (g : G) (k : K) (v : V) : Prop :=
  ∀ k' v', m.lookup k' = some v' → R.group k' v' = some g → R.rank k' v' ≤ R.rank k v

/-- In the group the flag is on the newest rows and on no others. -/
def MarkedIn (m : Table K V) (g : G) : Prop :=
  ∀ k v, m.lookup k = some v → R.group k v = some g → (R.flag v = true ↔ R.Newest m g k v)

structure Marked (m : Table K V) : Prop where
  grouped : ∀ g, R.MarkedIn m g
  ungrouped : ∀ k v, m.lookup k = some v → R.group k v = none → R.flag v = false

/-- The ranks of the rows that a query selects. -/
def ranks (m : Table K V) (selects : K → V → Bool) : Finset O :=
  ((m.entries.filter fun e => selects e.1 e.2).map fun e => R.rank e.1 e.2).toFinset

/-- Puts the flag on the newest rows of a group, and takes it from the others. -/
def refresh [DecidableEq G] (m : Table K V) (g : G) : Table K V :=
  let newest := (R.ranks m fun k v => R.group k v = some g).max
  update (fun k v =>
    if R.group k v = some g ∧ (R.flag v = true ∨ (R.rank k v : WithBot O) = newest) then R.mark v ((R.rank k v : WithBot O) = newest)
    else v) m

/-- Deletes the lowest ranks among the selected rows. -/
def deleteOldest (limit : Nat) (selects : K → V → Bool) (m : Table K V) : Nat × Table K V :=
  let chosen := smallest limit (R.ranks m selects)
  (chosen.length, keep (fun k v => !(selects k v && R.rank k v ∈ chosen)) m)

variable {R} {m t : Table K V} {g : G} {k : K} {v : V} {o : O} {selects : K → V → Bool} {limit : Nat}

theorem mem_ranks : o ∈ R.ranks m selects ↔ ∃ k v, m.lookup k = some v ∧ selects k v = true ∧ R.rank k v = o := by
  simp only [ranks, Multiset.mem_toFinset, Multiset.mem_map, Multiset.mem_filter, Sigma.exists, Finmap.lookup_eq_some_iff, and_assoc]

section Refresh

variable [DecidableEq G] {k' : K} {v' : V} {g' : G}

theorem max_eq_iff (hk : m.lookup k = some v) (hg : R.group k v = some g) :
    (R.rank k v : WithBot O) = (R.ranks m fun k v => R.group k v = some g).max ↔ R.Newest m g k v := by
  constructor
  · intro h k' v' hk' hg'
    have hmem : R.rank k' v' ∈ R.ranks m fun k v => R.group k v = some g := mem_ranks.mpr ⟨k', v', hk', decide_eq_true hg', rfl⟩
    exact WithBot.coe_le_coe.mp (h ▸ Finset.le_max hmem)
  · intro h
    refine le_antisymm (Finset.le_max (mem_ranks.mpr ⟨k, v, hk, decide_eq_true hg, rfl⟩)) (Finset.max_le fun o ho => ?_)
    obtain ⟨k', v', hk', hg', rfl⟩ := mem_ranks.mp ho
    exact WithBot.coe_le_coe.mpr (h k' v' hk' (of_decide_eq_true hg'))

/-- A refresh changes flags only, and only in its group. -/
theorem lookup_refresh (h : (R.refresh m g).lookup k = some v) : ∃ old, m.lookup k = some old ∧
    R.group k v = R.group k old ∧ R.rank k v = R.rank k old ∧ (R.group k old ≠ some g → v = old) ∧
      (R.group k old = some g → (R.flag v = true ↔ R.Newest m g k old)) := by
  rw [refresh, lookup_update] at h
  obtain ⟨old, hold, rfl⟩ := Option.map_eq_some_iff.mp h
  refine ⟨old, hold, ?_⟩
  by_cases hg : R.group k old = some g
  · rw [← max_eq_iff hold hg]
    split
    · exact ⟨R.group_mark _ _ _, R.rank_mark _ _ _, fun hne => absurd hg hne, fun _ => by rw [R.flag_mark, decide_eq_true_eq]⟩
    · next hsame =>
      refine ⟨rfl, rfl, fun _ => rfl, fun _ => ⟨fun hflag => absurd ⟨hg, .inl hflag⟩ hsame, fun hmax => ?_⟩⟩
      exact absurd ⟨hg, .inr hmax⟩ hsame
  · rw [if_neg fun h => hg h.1]
    exact ⟨rfl, rfl, fun _ => rfl, fun h => absurd h hg⟩

theorem exists_lookup_refresh (h : m.lookup k = some v) : ∃ new, (R.refresh m g).lookup k = some new ∧
    R.group k new = R.group k v ∧ R.rank k new = R.rank k v := by
  have hsome : ((R.refresh m g).lookup k).isSome := by
    rw [refresh, lookup_update, h]
    rfl
  obtain ⟨new, hnew⟩ := Option.isSome_iff_exists.mp hsome
  obtain ⟨old, hold, hgroup, hrank, -⟩ := lookup_refresh hnew
  obtain rfl := Option.some.inj (hold.symm.trans h)
  exact ⟨_, hnew, hgroup, hrank⟩

theorem newest_refresh {g' : G} {new : V} (hrank : R.rank k new = R.rank k v) : R.Newest (R.refresh m g) g' k new ↔ R.Newest m g' k v := by
  constructor
  · intro h k' v' hk' hg'
    obtain ⟨new', hnew', hgroup', hrank'⟩ := exists_lookup_refresh (R := R) (g := g) hk'
    rw [← hrank', ← hrank]
    exact h k' new' hnew' (hgroup'.trans hg')
  · intro h k' v' hk' hg'
    obtain ⟨old, hold, hgroup', hrank', -⟩ := lookup_refresh hk'
    rw [hrank', hrank]
    exact h k' old hold (hgroup' ▸ hg')

theorem markedIn_refresh : R.MarkedIn (R.refresh m g) g := by
  intro k v hk hg
  obtain ⟨old, hold, hgroup, hrank, -, hflag⟩ := lookup_refresh hk
  rw [hflag (hgroup ▸ hg), newest_refresh hrank]

theorem MarkedIn.refresh (h : R.MarkedIn m g') : R.MarkedIn (R.refresh m g) g' := by
  by_cases hgg : g' = g
  · exact hgg ▸ markedIn_refresh
  · intro k v hk hg
    obtain ⟨old, hold, hgroup, hrank, hsame, -⟩ := lookup_refresh hk
    have hold' : R.group k old = some g' := hgroup ▸ hg
    obtain rfl := hsame fun h => hgg (Option.some.inj (hold'.symm.trans h))
    rw [h k v hold hold', newest_refresh rfl]

/-- After the groups are refreshed, those that were marked before are still marked. -/
theorem markedIn_refreshes {groups : List G} (h : g ∈ groups ∨ R.MarkedIn m g) : R.MarkedIn (groups.foldl R.refresh m) g := by
  induction groups generalizing m with
  | nil => exact h.resolve_left List.not_mem_nil
  | cons head groups ih =>
      refine ih ?_
      rcases h with h | h
      · rcases List.mem_cons.mp h with rfl | h
        · exact .inr markedIn_refresh
        · exact .inl h
      · exact .inr h.refresh

theorem ungrouped_refreshes (groups : List G) (h : ∀ k v, m.lookup k = some v → R.group k v = none → R.flag v = false) :
    ∀ k v, (groups.foldl R.refresh m).lookup k = some v → R.group k v = none → R.flag v = false := by
  induction groups generalizing m with
  | nil => exact h
  | cons head groups ih =>
      refine ih fun k v hk hg => ?_
      obtain ⟨old, hold, hgroup, -, hsame, -⟩ := lookup_refresh hk
      rw [hgroup] at hg
      rw [hsame fun h => by rw [hg] at h; cases h]
      exact h k old hold hg

end Refresh

/-- Whether a group is marked depends on its rows only. -/
theorem MarkedIn.congr (h : R.MarkedIn m g) (hsame : ∀ k v, R.group k v = some g → (t.lookup k = some v ↔ m.lookup k = some v)) :
    R.MarkedIn t g := by
  intro k v hk hg
  rw [h k v ((hsame k v hg).mp hk) hg]
  constructor
  · exact fun hnewest k' v' hk' hg' => hnewest k' v' ((hsame k' v' hg').mp hk') hg'
  · exact fun hnewest k' v' hk' hg' => hnewest k' v' ((hsame k' v' hg').mpr hk') hg'

section Keep

/-- A group that has rows has a newest one. -/
theorem exists_newest (hk : m.lookup k = some v) (hg : R.group k v = some g) :
    ∃ k' v', m.lookup k' = some v' ∧ R.group k' v' = some g ∧ R.Newest m g k' v' := by
  classical
  have hne : (R.ranks m fun k v => R.group k v = some g).Nonempty := ⟨_, mem_ranks.mpr ⟨k, v, hk, decide_eq_true hg, rfl⟩⟩
  obtain ⟨o, ho⟩ := Finset.max_of_nonempty hne
  obtain ⟨k', v', hk', hg', rfl⟩ := mem_ranks.mp (Finset.mem_of_max ho)
  have hg' := of_decide_eq_true hg'
  exact ⟨k', v', hk', hg', (max_eq_iff hk' hg').mp ho.symm⟩

variable {p : K → V → Bool}

/-- A deletion keeps the flags right that takes rows below all it leaves of their groups, and rows that are not newest. -/
theorem Marked.keep (h : R.Marked m) (hp : ∀ k v g, m.lookup k = some v → R.group k v = some g → p k v = false →
    (∀ k' v', m.lookup k' = some v' → R.group k' v' = some g → p k' v' = true → R.rank k v ≤ R.rank k' v') ∨ ¬R.Newest m g k v) :
    R.Marked (keep p m) := by
  refine ⟨fun g k v hk hg => ?_, fun k v hk => h.ungrouped k v (lookup_keep_eq_some.mp hk).1⟩
  obtain ⟨hk, hkept⟩ := lookup_keep_eq_some.mp hk
  rw [h.grouped g k v hk hg]
  refine ⟨fun hnewest k' v' hk' hg' => hnewest k' v' (lookup_keep_eq_some.mp hk').1 hg', fun hnewest => ?_⟩
  -- the newest row of the group either stays or is below what stays
  obtain ⟨top, row, htop, hgtop, hnewest'⟩ := exists_newest hk hg
  have hle : R.rank top row ≤ R.rank k v := by
    by_cases hkeep : p top row = true
    · exact hnewest top row (lookup_keep_eq_some.mpr ⟨htop, hkeep⟩) hgtop
    · rcases hp top row g htop hgtop (Bool.eq_false_iff.mpr hkeep) with hbelow | hnot
      · exact hbelow k v hk hg hkept
      · exact absurd hnewest' hnot
  exact fun k' v' hk' hg' => (hnewest' k' v' hk' hg').trans hle

end Keep

theorem lookup_deleteOldest : (R.deleteOldest limit selects m).2.lookup k = some v ↔
    m.lookup k = some v ∧ ¬(selects k v = true ∧ R.rank k v ∈ smallest limit (R.ranks m selects)) := by
  rw [deleteOldest, lookup_keep_eq_some, Bool.not_eq_true', Bool.eq_false_iff, ne_eq, Bool.and_eq_true, decide_eq_true_eq]

theorem deleteOldest_eq_zero (h : (R.deleteOldest limit selects m).1 = 0) (hlimit : limit ≠ 0) (hk : m.lookup k = some v) :
    selects k v = false := by
  by_contra hselects
  have hempty := (smallest_eq_nil.mp (List.length_eq_zero_iff.mp h)).resolve_left hlimit
  have hmem : R.rank k v ∈ R.ranks m selects := mem_ranks.mpr ⟨k, v, hk, by simpa using hselects, rfl⟩
  exact Finset.notMem_empty _ (hempty ▸ hmem)

theorem len_deleteOldest (h : 0 < (R.deleteOldest limit selects m).1) : len (R.deleteOldest limit selects m).2 < len m := by
  obtain ⟨o, ho⟩ := List.exists_mem_of_length_pos h
  obtain ⟨k, v, hk, hselects, rfl⟩ := mem_ranks.mp (mem_of_mem_smallest ho)
  refine len_keep_lt hk ?_
  simp only [hselects, ho, decide_true, Bool.and_self, Bool.not_true]

/-- Deleting what is old keeps the flags right. -/
theorem Marked.deleteOldest_down (h : R.Marked m) (hselects : ∀ k v k' v' g, R.group k v = some g → R.group k' v' = some g →
    selects k v = true → R.rank k' v' ≤ R.rank k v → selects k' v' = true) : R.Marked (R.deleteOldest limit selects m).2 := by
  dsimp only [deleteOldest]
  refine h.keep fun k v g hk hg hgone => .inl fun k' v' hk' hg' hkept => ?_
  simp only [Bool.not_eq_false', Bool.and_eq_true, decide_eq_true_eq] at hgone
  by_contra hlt
  have hle : R.rank k' v' ≤ R.rank k v := (lt_of_not_ge hlt).le
  have hselected := hselects k v k' v' g hg hg' hgone.1 hle
  have hmem := mem_smallest_of_le hgone.2 (mem_ranks.mpr ⟨k', v', hk', hselected, rfl⟩) hle
  simp [hselected, hmem] at hkept

theorem Marked.deleteOldest_unflagged (h : R.Marked m) (hselects : ∀ k v, selects k v = true → R.flag v = false) :
    R.Marked (R.deleteOldest limit selects m).2 := by
  dsimp only [deleteOldest]
  refine h.keep fun k v g hk hg hgone => .inr fun hnewest => ?_
  simp only [Bool.not_eq_false', Bool.and_eq_true, decide_eq_true_eq] at hgone
  have hflag := (h.grouped g k v hk hg).mpr hnewest
  rw [hselects k v hgone.1] at hflag
  cases hflag

end Ranking

end Rustgo.LatestRows
