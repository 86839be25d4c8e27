import Mathlib.Logic.Basic

namespace Rustgo

variable {ε σ α β : Type}

/-- A call on a mutable state. No result is a panic, and an error keeps what
was written before it. -/
def Call (ε σ α : Type) := σ → Option (Except ε α × σ)

namespace Call

instance : Monad (Call ε σ) where
  pure a := fun s => some (.ok a, s)
  bind x f := fun s => (x s).bind fun
    | (.ok a, t) => f a t
    | (.error e, t) => some (.error e, t)

def read (f : σ → Except ε α) : Call ε σ α := fun s => some (f s, s)

def update (f : σ → σ) : Call ε σ Unit := fun s => some (.ok (), f s)

def attempt (f : σ → Option (α × σ)) : Call ε σ α := fun s => (f s).map fun p => (.ok p.1, p.2)

/-- Drops the result of a call, with what it wrote. -/
def ignoring (x : Call ε σ Unit) : Call ε σ Unit := fun s => (x s).map fun p => (.ok (), p.2)

@[simp] theorem update_apply (f : σ → σ) (s : σ) : (update f : Call ε σ Unit) s = some (.ok (), f s) := rfl

theorem bind_apply (x : Call ε σ α) (f : α → Call ε σ β) (s : σ) :
    (x >>= f) s = (x s).bind fun
      | (.ok a, t) => f a t
      | (.error e, t) => some (.error e, t) := rfl

theorem bind_of_ok {x : Call ε σ α} {s t : σ} {a : α} (h : x s = some (.ok a, t)) (f : α → Call ε σ β) :
    (x >>= f) s = f a t := by
  simp only [bind_apply, h, Option.bind_some]

@[simp] theorem update_bind (g : σ → σ) (f : Unit → Call ε σ β) (s : σ) :
    (update g >>= f) s = f () (g s) := rfl

theorem update_bind_eq {g : σ → σ} {f : Unit → Call ε σ β} {s : σ} {r : Option (Except ε β × σ)}
    (hf : f () (g s) = r) : (update g >>= f) s = r := hf

theorem read_bind_ok {g : σ → Except ε α} {s : σ} {a : α} (h : g s = .ok a) (f : α → Call ε σ β) :
    (read g >>= f) s = f a s := by
  simp only [bind_apply, read, h, Option.bind_some]

theorem read_bind_eq {g : σ → Except ε α} {f : α → Call ε σ β} {s : σ} {a : α} {r : Option (Except ε β × σ)}
    (h : g s = .ok a) (hf : f a s = r) : (read g >>= f) s = r := (read_bind_ok h f).trans hf

theorem read_bind_error {g : σ → Except ε α} {s : σ} {e : ε} (h : g s = .error e) (f : α → Call ε σ β) :
    (read g >>= f) s = some (.error e, s) := by
  simp only [bind_apply, read, h, Option.bind_some]

/-- What can be said of a call that starts by reading the state. -/
theorem read_bind_cases {g : σ → Except ε α} {f : α → Call ε σ β} {s : σ} {r : Except ε β × σ}
    (h : (read g >>= f) s = some r) :
    (∃ e, g s = .error e ∧ r = (.error e, s)) ∨ ∃ a, g s = .ok a ∧ f a s = some r := by
  cases hg : g s with
  | error e =>
      rw [read_bind_error hg] at h
      exact .inl ⟨e, rfl, (Option.some.inj h).symm⟩
  | ok a =>
      rw [read_bind_ok hg] at h
      exact .inr ⟨a, rfl, h⟩

/-- A call that starts by reading the state returns if what follows returns. -/
theorem read_bind_returns {g : σ → Except ε α} {f : α → Call ε σ β} {s : σ}
    (h : ∀ a, g s = .ok a → ∃ r, f a s = some r) : ∃ r, (read g >>= f) s = some r := by
  cases hg : g s with
  | error e => exact ⟨_, read_bind_error hg f⟩
  | ok a =>
      rw [read_bind_ok hg]
      exact h a hg

end Call

end Rustgo
