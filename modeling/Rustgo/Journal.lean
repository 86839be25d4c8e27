import Mathlib.Data.Finset.Basic
import Mathlib.Data.List.Basic

namespace Rustgo.Journal

variable {E K V : Type} [DecidableEq K] (key : E → K) (value : E → V)

/-- The value that the last entry of a key has written. -/
def latest (log : List E) (k : K) : Option V := (log.filter fun e => key e = k).getLast?.map value

variable {key value} {log : List E} {e : E} {k : K}

@[simp] theorem latest_nil : latest key value [] k = none := rfl

theorem latest_snoc : latest key value (log ++ [e]) k = if key e = k then some (value e) else latest key value log k := by
  by_cases h : key e = k <;> simp [latest, h]

/-- Later entries win over earlier ones. -/
theorem latest_append (earlier later : List E) :
    latest key value (earlier ++ later) k = (latest key value later k).or (latest key value earlier k) := by
  induction later using List.reverseRecOn with
  | nil => simp
  | append_singleton later e ih =>
      rw [← List.append_assoc, latest_snoc, latest_snoc, ih]
      split <;> rfl

theorem latest_eq_none : latest key value log k = none ↔ ∀ e ∈ log, key e ≠ k := by
  rw [latest, Option.map_eq_none_iff, List.getLast?_eq_none_iff, List.filter_eq_nil_iff]
  simp only [decide_eq_true_eq, ne_eq]

theorem latest_isSome : (latest key value log k).isSome = true ↔ ∃ e ∈ log, key e = k := by
  rw [← Option.ne_none_iff_isSome, Ne, latest_eq_none]
  simp only [not_forall, not_not, exists_prop]

end Rustgo.Journal
