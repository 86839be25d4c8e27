import Mathlib.Data.List.Nodup

namespace Rustgo.Rows

variable {α β : Type} {p q : α → Bool} {f : α → α} {rows : List α} {r : α}

/-- `UPDATE … SET f WHERE p` on the rows of a table, in the order in which they were inserted. -/
def updateWhere (p : α → Bool) (f : α → α) (rows : List α) : List α := rows.map fun r => if p r then f r else r

theorem mem_updateWhere : r ∈ updateWhere p f rows ↔ (∃ r₀ ∈ rows, p r₀ = true ∧ f r₀ = r) ∨ r ∈ rows ∧ p r = false := by
  rw [updateWhere, List.mem_map]
  constructor
  · rintro ⟨r₀, hr₀, heq⟩
    cases hp : p r₀ with
    | true => exact .inl ⟨r₀, hr₀, hp, by simpa [hp] using heq⟩
    | false =>
        obtain rfl : r₀ = r := by simpa [hp] using heq
        exact .inr ⟨hr₀, hp⟩
  · rintro (⟨r₀, hr₀, hp, heq⟩ | ⟨hr, hp⟩)
    · exact ⟨r₀, hr₀, by simpa [hp] using heq⟩
    · exact ⟨r, hr, by simp [hp]⟩

theorem updateWhere_of_none (h : ∀ r ∈ rows, p r = false) : updateWhere p f rows = rows := by
  rw [updateWhere]
  refine (List.map_congr_left fun r hr => ?_).trans (List.map_id _)
  simp [h r hr]

/-- A column that the update does not write. -/
theorem map_updateWhere {g : α → β} (hg : ∀ r, g (f r) = g r) : (updateWhere p f rows).map g = rows.map g := by
  rw [updateWhere, List.map_map]
  refine List.map_congr_left fun r _ => ?_
  rw [Function.comp_apply]
  split
  · exact hg r
  · rfl

/-- Two updates of the same rows. -/
theorem updateWhere_updateWhere {g : α → α} (hp : ∀ r, p (f r) = p r) :
    updateWhere p g (updateWhere p f rows) = updateWhere p (g ∘ f) rows := by
  rw [updateWhere, updateWhere, updateWhere, List.map_map]
  refine List.map_congr_left fun r _ => ?_
  rw [Function.comp_apply]
  cases hr : p r with
  | true => simp [hp, hr]
  | false => simp [hr]

@[simp] theorem length_updateWhere : (updateWhere p f rows).length = rows.length := List.length_map _

theorem find?_updateWhere (hq : ∀ r, q (f r) = q r) :
    (updateWhere p f rows).find? q = (rows.find? q).map fun r => if p r then f r else r := by
  rw [updateWhere, List.find?_map]
  refine congrArg (Option.map _) (congrArg (List.find? · rows) (funext fun r => ?_))
  rw [Function.comp_apply]
  split
  · exact hq r
  · rfl

/-- The rows are told apart by a column. -/
def Keyed (key : α → β) (rows : List α) : Prop := (rows.map key).Nodup

section Keyed

variable {key : α → β} {k : β} {r' : α}

theorem keyed_nil : Keyed key [] := List.nodup_nil

theorem Keyed.eq_of_key_eq (h : Keyed key rows) (hr : r ∈ rows) (hr' : r' ∈ rows) (hkey : key r = key r') : r = r' :=
  List.inj_on_of_nodup_map h hr hr' hkey

theorem Keyed.updateWhere (h : Keyed key rows) (hf : ∀ r, key (f r) = key r) : Keyed key (updateWhere p f rows) := by
  rw [Keyed, map_updateWhere hf]
  exact h

theorem Keyed.insert (h : Keyed key rows) (hnew : ∀ r' ∈ rows, key r' ≠ key r) : Keyed key (rows ++ [r]) := by
  rw [Keyed, List.map_append, List.map_singleton]
  refine List.Nodup.append h (List.nodup_singleton _) (List.disjoint_singleton.mpr fun hmem => ?_)
  obtain ⟨r', hr', heq⟩ := List.mem_map.mp hmem
  exact hnew r' hr' heq

theorem Keyed.filter (h : Keyed key rows) (p : α → Bool) : Keyed key (rows.filter p) :=
  h.sublist (List.filter_sublist.map key)

theorem Keyed.find?_eq_some [DecidableEq β] (h : Keyed key rows) :
    rows.find? (fun r => key r = k) = some r ↔ r ∈ rows ∧ key r = k := by
  constructor
  · intro hfind
    exact ⟨List.mem_of_find?_eq_some hfind, by simpa using List.find?_some hfind⟩
  · rintro ⟨hr, hkey⟩
    cases hfind : rows.find? (fun r => key r = k) with
    | none => exact absurd hkey (by simpa using List.find?_eq_none.mp hfind r hr)
    | some r' =>
        have hr' := List.mem_of_find?_eq_some hfind
        have hkey' : key r' = k := by simpa using List.find?_some hfind
        rw [h.eq_of_key_eq hr' hr (hkey'.trans hkey.symm)]

/-- Other rows are not touched when one row is replaced. -/
theorem mem_replace [DecidableEq β] {old new : α} (hold : old ∈ rows) :
    r ∈ Rows.updateWhere (fun r => key r = key old) (fun _ => new) rows ↔ r = new ∨ r ∈ rows ∧ key r ≠ key old := by
  rw [mem_updateWhere]
  constructor
  · rintro (⟨-, -, -, rfl⟩ | ⟨hr, hne⟩)
    · exact .inl rfl
    · exact .inr ⟨hr, of_decide_eq_false hne⟩
  · rintro (rfl | ⟨hr, hne⟩)
    · exact .inl ⟨old, hold, decide_eq_true rfl, rfl⟩
    · exact .inr ⟨hr, decide_eq_false hne⟩

/-- A column that tells the rows apart, after a row has been replaced. -/
theorem Keyed.replace [DecidableEq β] {γ : Type} {key' : α → γ} (h : Keyed key rows) (h' : Keyed key' rows) {old new : α}
    (hnew : ∀ r ∈ rows, key r ≠ key old → key' r ≠ key' new) :
    Keyed key' (Rows.updateWhere (fun r => key r = key old) (fun _ => new) rows) := by
  rw [Keyed, Rows.updateWhere, List.map_map]
  refine List.Nodup.map_on (fun r hr r' hr' heq => ?_) (List.Nodup.of_map key h)
  simp only [Function.comp_apply, decide_eq_true_eq] at heq
  split at heq
  · next hr₀ =>
    split at heq
    · next hr₀' => exact h.eq_of_key_eq hr hr' (hr₀.trans hr₀'.symm)
    · next hr₀' => exact absurd heq.symm (hnew r' hr' hr₀')
  · next hr₀ =>
    split at heq
    · exact absurd heq (hnew r hr hr₀)
    · exact h'.eq_of_key_eq hr hr' heq

theorem Keyed.countP_replace [DecidableEq β] (h : Keyed key rows) {old : α} (hold : old ∈ rows) (new : α) (p : α → Bool) :
    (Rows.updateWhere (fun r => key r = key old) (fun _ => new) rows).countP p + (if p old then 1 else 0) =
      rows.countP p + if p new then 1 else 0 := by
  induction rows with
  | nil => cases hold
  | cons r rows ih =>
      rw [Keyed, List.map_cons, List.nodup_cons] at h
      rw [Rows.updateWhere, List.map_cons, List.countP_cons, List.countP_cons, ← Rows.updateWhere]
      rcases List.mem_cons.mp hold with rfl | hold
      · have hothers : Rows.updateWhere (fun r => key r = key old) (fun _ => new) rows = rows :=
          updateWhere_of_none fun r hr => decide_eq_false fun heq => h.1 (heq ▸ List.mem_map_of_mem hr)
        rw [hothers, if_pos (decide_eq_true rfl)]
        omega
      · have hne : key r ≠ key old := fun heq => h.1 (heq ▸ List.mem_map_of_mem hold)
        have hcount := ih h.2 hold
        have hhead : (if decide (key r = key old) = true then new else r) = r := if_neg (by simpa using hne)
        rw [hhead]
        omega

end Keyed

end Rustgo.Rows
