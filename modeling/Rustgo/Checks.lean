import Mathlib.Algebra.GroupWithZero.Nat
import Mathlib.Logic.Basic

namespace Rustgo.Checks

variable {ε α β : Type}

/-- Return early with `e` unless the condition holds. -/
def require (c : Prop) [Decidable c] (e : ε) : Except ε Unit := if c then .ok () else .error e

def okOr (value : Option α) (e : ε) : Except ε α :=
  match value with
  | some a => .ok a
  | none => .error e

@[simp] theorem require_eq_ok {c : Prop} [Decidable c] {e : ε} {u : Unit} :
    require c e = .ok u ↔ c := by
  by_cases h : c <;> simp [require, h]

theorem require_of {c : Prop} [Decidable c] {e : ε} (h : c) : require c e = .ok () :=
  require_eq_ok.mpr h

@[simp] theorem okOr_eq_ok {value : Option α} {e : ε} {a : α} : okOr value e = .ok a ↔ value = some a := by
  cases value <;> simp [okOr]

@[simp] theorem bind_eq_ok {x : Except ε α} {f : α → Except ε β} {b : β} :
    (x >>= f) = .ok b ↔ ∃ a, x = .ok a ∧ f a = .ok b := by
  cases x <;> simp [bind, Except.bind]

@[simp] theorem pure_eq_ok {a b : α} : (pure a : Except ε α) = .ok b ↔ a = b := by
  simp [pure, Except.pure]

theorem map_eq_ok {x : Except ε α} {f : α → β} {b : β} : f <$> x = .ok b ↔ ∃ a, x = .ok a ∧ f a = b := by
  cases x <;> simp [Functor.map, Except.map]

/-- Replace whatever error occurs by `e`. -/
def orFail {ε' : Type} (x : Except ε α) (e : ε') : Except ε' α :=
  match x with
  | .ok a => .ok a
  | .error _ => .error e

@[simp] theorem orFail_eq_ok {ε' : Type} {x : Except ε α} {e : ε'} {a : α} : orFail x e = .ok a ↔ x = .ok a := by
  cases x <;> simp [orFail]

@[simp] theorem require_eq_error {c : Prop} [Decidable c] {e e' : ε} : require c e = .error e' ↔ ¬c ∧ e = e' := by
  by_cases h : c <;> simp [require, h]

@[simp] theorem okOr_eq_error {value : Option α} {e e' : ε} : okOr value e = .error e' ↔ value = none ∧ e = e' := by
  cases value <;> simp [okOr]

@[simp] theorem bind_eq_error {x : Except ε α} {f : α → Except ε β} {e : ε} :
    (x >>= f) = .error e ↔ x = .error e ∨ ∃ a, x = .ok a ∧ f a = .error e := by
  cases x <;> simp [bind, Except.bind]

theorem ok_bind (a : α) (f : α → Except ε β) : ((.ok a : Except ε α) >>= f) = f a := rfl

theorem eq_ok_or_error (x : Except ε α) : (∃ a, x = .ok a) ∨ ∃ e, x = .error e := by
  cases x with
  | ok a => exact .inl ⟨a, rfl⟩
  | error e => exact .inr ⟨e, rfl⟩

/-- A fold keeps what each of its steps keeps. -/
theorem foldlM_preserves {P : β → Prop} {f : β → α → Except ε β} {xs : List α} {b c : β}
    (hstep : ∀ b, P b → ∀ a ∈ xs, ∀ c, f b a = .ok c → P c) (hb : P b) (h : xs.foldlM f b = .ok c) : P c := by
  induction xs generalizing b with
  | nil =>
      rw [List.foldlM_nil, pure_eq_ok] at h
      exact h ▸ hb
  | cons a xs ih =>
      rw [List.foldlM_cons, bind_eq_ok] at h
      obtain ⟨d, hd, hrest⟩ := h
      exact ih (fun b hb x hx => hstep b hb x (List.mem_cons_of_mem a hx)) (hstep b hb a List.mem_cons_self d hd) hrest

/-- What a fold costs is bounded by what its steps cost. -/
theorem foldlM_cost_le {P : β → Prop} {f : β → α → Except ε β} {xs : List α} {b c : β} (cost : β → Nat) (weight : α → Nat)
    (hstep : ∀ b, P b → ∀ a ∈ xs, ∀ c, f b a = .ok c → P c ∧ cost c ≤ cost b + weight a) (hb : P b)
    (h : xs.foldlM f b = .ok c) : cost c ≤ cost b + (xs.map weight).sum := by
  induction xs generalizing b with
  | nil =>
      rw [List.foldlM_nil, pure_eq_ok] at h
      rw [h]
      exact Nat.le_add_right _ _
  | cons a xs ih =>
      rw [List.foldlM_cons, bind_eq_ok] at h
      obtain ⟨d, hd, hrest⟩ := h
      obtain ⟨hP, hcost⟩ := hstep b hb a List.mem_cons_self d hd
      have hle := ih (fun b hb x hx => hstep b hb x (List.mem_cons_of_mem a hx)) hP hrest
      rw [List.map_cons, List.sum_cons]
      omega

end Rustgo.Checks
