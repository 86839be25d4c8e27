import Rustgo.CallRules

namespace Rustgo.Call

variable {ε σ α β : Type} {F R : σ → σ → Prop} {S : α → α → Prop} {T : β → β → Prop}

/-- Two calls fail alike or return values that are related. -/
inductive Matches (S : α → α → Prop) : Except ε α → Except ε α → Prop
  | ok {a b} (h : S a b) : Matches S (.ok a) (.ok b)
  | error (e) : Matches S (.error e) (.error e)

theorem Matches.eq {S : Unit → Unit → Prop} {r r' : Except ε Unit} (h : Matches S r r') : r' = r := by
  cases h <;> rfl

/-- From related states both calls return, with results that match, and leave
related states; the first goes only where the frame `F` allows. -/
def Agrees (F R : σ → σ → Prop) (S : α → α → Prop) (x y : Call ε σ α) : Prop :=
  ∀ s t, R s t → ∃ r s' r' t', x s = some (r, s') ∧ y t = some (r', t') ∧ F s s' ∧ R s' t' ∧ Matches S r r'

namespace Agrees

theorem bind {x y : Call ε σ α} {f g : α → Call ε σ β} (hF : ∀ s t u, F s t → F t u → F s u)
    (hx : Agrees F R S x y) (hf : ∀ a b, S a b → Agrees F R T (f a) (g b)) : Agrees F R T (x >>= f) (y >>= g) := by
  intro s t hst
  obtain ⟨r, s', r', t', hxs, hyt, hframe, hst', hr⟩ := hx s t hst
  cases hr with
  | ok hab =>
      obtain ⟨r, s'', r', t'', hfs, hgt, hframe', hst'', hr⟩ := hf _ _ hab s' t' hst'
      refine ⟨r, s'', r', t'', ?_, ?_, hF _ _ _ hframe hframe', hst'', hr⟩
      · rw [bind_apply, hxs]
        exact hfs
      · rw [bind_apply, hyt]
        exact hgt
  | error e =>
      refine ⟨.error e, s', .error e, t', ?_, ?_, hframe, hst', .error e⟩
      · rw [bind_apply, hxs]
        rfl
      · rw [bind_apply, hyt]
        rfl

theorem pure {a b : α} (hF : ∀ s, F s s) (h : S a b) : Agrees F R S (Pure.pure a : Call ε σ α) (Pure.pure b) :=
  fun s t hst => ⟨.ok a, s, .ok b, t, rfl, rfl, hF s, hst, .ok h⟩

theorem read {f g : σ → Except ε α} (hF : ∀ s, F s s) (h : ∀ s t, R s t → Matches S (f s) (g t)) :
    Agrees F R S (Call.read f) (Call.read g) :=
  fun s t hst => ⟨f s, s, g t, t, rfl, rfl, hF s, hst, h s t hst⟩

theorem update {f g : σ → σ} (h : ∀ s t, R s t → F s (f s) ∧ R (f s) (g t)) :
    Agrees F R (fun _ _ => True) (Call.update f : Call ε σ Unit) (Call.update g) :=
  fun s t hst => ⟨.ok (), f s, .ok (), g t, rfl, rfl, (h s t hst).1, (h s t hst).2, .ok trivial⟩

theorem ignoring {x y : Call ε σ Unit} {S : Unit → Unit → Prop} (h : Agrees F R S x y) :
    Agrees F R (fun _ _ => True) (Call.ignoring x) (Call.ignoring y) := by
  intro s t hst
  obtain ⟨r, s', r', t', hxs, hyt, hframe, hst', _⟩ := h s t hst
  exact ⟨.ok (), s', .ok (), t', by rw [Call.ignoring, hxs]; rfl, by rw [Call.ignoring, hyt]; rfl, hframe, hst',
    .ok trivial⟩

theorem ite {p q : Prop} [Decidable p] [Decidable q] {x y x' y' : Call ε σ α} (hpq : q ↔ p)
    (hx : p → Agrees F R S x y) (hy : ¬ p → Agrees F R S x' y') :
    Agrees F R S (if p then x else x') (if q then y else y') := by
  by_cases hp : p
  · rw [if_pos hp, if_pos (hpq.mpr hp)]
    exact hx hp
  · rw [if_neg hp, if_neg fun hq => hp (hpq.mp hq)]
    exact hy hp

end Agrees

theorem Matches.refl {S : α → α → Prop} (hS : ∀ a, S a a) (r : Except ε α) : Matches S r r := by
  cases r with
  | ok a => exact .ok (hS a)
  | error e => exact .error e

theorem Matches.bind {f g : α → Except ε β} {r r' : Except ε α} (h : Matches S r r')
    (hf : ∀ a b, S a b → Matches T (f a) (g b)) : Matches T (r >>= f) (r' >>= g) := by
  cases h with
  | ok hab => exact hf _ _ hab
  | error e => exact .error e

/-- Both go on from the same result. -/
theorem Matches.andThen {f g : α → Except ε β} {r : Except ε α} (hf : ∀ a, r = .ok a → Matches T (f a) (g a)) :
    Matches T (r >>= f) (r >>= g) := by
  cases r with
  | ok a => exact hf a rfl
  | error e => exact .error e

theorem rel_bind {γ δ : Type} {A : α → β → Prop} {B : γ → δ → Prop} {x : Option α} {y : Option β} {f : α → Option γ} {g : β → Option δ}
    (h : Option.Rel A x y) (hf : ∀ a b, A a b → Option.Rel B (f a) (g b)) : Option.Rel B (x.bind f) (y.bind g) := by
  cases h with
  | none => exact .none
  | some hab => exact hf _ _ hab

/-- Both outcomes are panics, or they match and leave related states. -/
def Mirrored (R : σ → σ → Prop) (S : α → α → Prop) : Option (Except ε α × σ) → Option (Except ε α × σ) → Prop :=
  Option.Rel fun p q => R p.2 q.2 ∧ Matches S p.1 q.1

/-- From related states both calls have mirrored outcomes. -/
def Mirrors (R : σ → σ → Prop) (S : α → α → Prop) (x y : Call ε σ α) : Prop := ∀ s t, R s t → Mirrored R S (x s) (y t)

theorem Mirrored.bind {x y : Call ε σ α} {f g : α → Call ε σ β} {s t : σ} (h : Mirrored R S (x s) (y t))
    (hf : ∀ a b, S a b → Mirrors R T (f a) (g b)) : Mirrored R T ((x >>= f) s) ((y >>= g) t) := by
  rw [bind_apply, bind_apply]
  generalize x s = p at h
  generalize y t = q at h
  cases h with
  | none => exact .none
  | @some p q h =>
      obtain ⟨r, s'⟩ := p
      obtain ⟨r', t'⟩ := q
      obtain ⟨hst, hr⟩ := h
      cases hr with
      | ok hab => exact hf _ _ hab s' t' hst
      | error e => exact .some ⟨hst, .error e⟩

/-- A read at the start leaves the states where they are. -/
theorem Mirrored.read_bind {f g : σ → Except ε α} {k k' : α → Call ε σ β} {s t : σ} (hst : R s t) (h : Matches S (f s) (g t))
    (hk : ∀ a b, S a b → Mirrored R T (k a s) (k' b t)) : Mirrored R T ((Call.read f >>= k) s) ((Call.read g >>= k') t) := by
  rw [bind_apply, bind_apply, Call.read, Call.read]
  generalize f s = p at h
  generalize g t = q at h
  cases h with
  | ok hab => exact hk _ _ hab
  | error e => exact .some ⟨hst, .error e⟩

namespace Mirrors

theorem bind {x y : Call ε σ α} {f g : α → Call ε σ β} (h : Mirrors R S x y) (hf : ∀ a b, S a b → Mirrors R T (f a) (g b)) :
    Mirrors R T (x >>= f) (y >>= g) :=
  fun s t hst => (h s t hst).bind hf

theorem pure {a b : α} (h : S a b) : Mirrors R S (Pure.pure a : Call ε σ α) (Pure.pure b) :=
  fun _ _ hst => .some ⟨hst, .ok h⟩

theorem read {f g : σ → Except ε α} (h : ∀ s t, R s t → Matches S (f s) (g t)) : Mirrors R S (Call.read f) (Call.read g) :=
  fun s t hst => .some ⟨hst, h s t hst⟩

theorem update {f g : σ → σ} (h : ∀ s t, R s t → R (f s) (g t)) :
    Mirrors R (fun _ _ => True) (Call.update f : Call ε σ Unit) (Call.update g) :=
  fun s t hst => .some ⟨h s t hst, .ok trivial⟩

theorem attempt {f g : σ → Option (α × σ)} (h : ∀ s t, R s t → Option.Rel (fun p q => S p.1 q.1 ∧ R p.2 q.2) (f s) (g t)) :
    Mirrors R S (Call.attempt f : Call ε σ α) (Call.attempt g) := by
  intro s t hst
  have hfg := h s t hst
  rw [Call.attempt, Call.attempt]
  generalize f s = p at hfg
  generalize g t = q at hfg
  cases hfg with
  | none => exact .none
  | some hpq => exact .some ⟨hpq.2, .ok hpq.1⟩

end Mirrors

end Rustgo.Call
