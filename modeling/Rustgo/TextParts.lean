import Mathlib.Data.List.Infix

namespace Rustgo.TextParts

variable {α : Type} [DecidableEq α] {c : α} {text before after start : List α}

/-- What stands before and behind the first `c`. -/
def splitOnce (c : α) : List α → Option (List α × List α)
  | [] => none
  | d :: rest => if d = c then some ([], rest) else (splitOnce c rest).map fun parts => (d :: parts.1, parts.2)

def stripPrefix (start text : List α) : Option (List α) :=
  if start <+: text then some (text.drop start.length) else none

theorem splitOnce_eq_some : splitOnce c text = some (before, after) ↔ text = before ++ c :: after ∧ c ∉ before := by
  induction text generalizing before with
  | nil => simp [splitOnce]
  | cons d rest ih =>
      rw [splitOnce]
      split
      · next hd =>
        subst hd
        constructor
        · intro h
          obtain ⟨rfl, rfl⟩ := Prod.mk.inj (Option.some.inj h)
          exact ⟨rfl, List.not_mem_nil⟩
        · rintro ⟨htext, hbefore⟩
          cases before with
          | nil => rw [(List.cons.inj htext).2]
          | cons e before =>
              obtain ⟨rfl, -⟩ := List.cons.inj htext
              exact absurd List.mem_cons_self hbefore
      · next hd =>
        rw [Option.map_eq_some_iff]
        constructor
        · rintro ⟨⟨first, last⟩, hparts, heq⟩
          obtain ⟨rfl, rfl⟩ := Prod.mk.inj heq
          obtain ⟨rfl, hfirst⟩ := ih.mp hparts
          exact ⟨rfl, fun hmem => (List.mem_cons.mp hmem).elim (fun h => hd h.symm) hfirst⟩
        · rintro ⟨htext, hbefore⟩
          cases before with
          | nil => exact absurd (List.cons.inj htext).1 hd
          | cons e before =>
              obtain ⟨rfl, rfl⟩ := List.cons.inj htext
              exact ⟨(before, after), ih.mpr ⟨rfl, fun hmem => hbefore (List.mem_cons_of_mem _ hmem)⟩, rfl⟩

theorem splitOnce_append (h : c ∉ before) (after : List α) : splitOnce c (before ++ c :: after) = some (before, after) :=
  splitOnce_eq_some.mpr ⟨rfl, h⟩

theorem splitOnce_eq_none : splitOnce c text = none ↔ c ∉ text := by
  induction text with
  | nil => simp [splitOnce]
  | cons d rest ih =>
      rw [splitOnce]
      split
      · next hd => simp [hd]
      · next hd =>
        rw [Option.map_eq_none_iff, ih, List.mem_cons, not_or]
        exact ⟨fun h => ⟨fun hcd => hd hcd.symm, h⟩, And.right⟩

theorem stripPrefix_eq_some : stripPrefix start text = some after ↔ text = start ++ after := by
  rw [stripPrefix]
  constructor
  · intro h
    split at h
    · next hprefix =>
      obtain ⟨rest, rfl⟩ := hprefix
      obtain rfl := Option.some.inj h
      rw [List.drop_left]
    · cases h
  · rintro rfl
    rw [if_pos (List.prefix_append start after), List.drop_left]

theorem stripPrefix_append (start after : List α) : stripPrefix start (start ++ after) = some after :=
  stripPrefix_eq_some.mpr rfl

end Rustgo.TextParts
