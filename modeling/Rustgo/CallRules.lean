import Rustgo.Calls
import Mathlib.Logic.Relation

namespace Rustgo.Call

open Relation

variable {ε σ α β : Type} {C : σ → σ → Prop} {P P' : σ → Prop} {Q Q' : α → σ → Prop} {R : β → σ → Prop}

/-- What can be said of a call that starts with another call. -/
theorem bind_cases {x : Call ε σ α} {f : α → Call ε σ β} {s : σ} {r : Except ε β × σ} (h : (x >>= f) s = some r) :
    (∃ e t, x s = some (.error e, t) ∧ r = (.error e, t)) ∨ ∃ a t, x s = some (.ok a, t) ∧ f a t = some r := by
  rw [bind_apply] at h
  obtain ⟨⟨result, t⟩, ht, hr⟩ := Option.bind_eq_some_iff.mp h
  cases result with
  | error e => exact .inl ⟨e, t, ht, (Option.some.inj hr).symm⟩
  | ok a => exact .inr ⟨a, t, ht, hr⟩

/-- If the call succeeded, the state it left satisfies `P`. -/
def Leaves (P : σ → Prop) : Option (Except ε Unit × σ) → Prop
  | some (.ok _, s) => P s
  | _ => True

instance [DecidablePred P] : DecidablePred (Leaves P : Option (Except ε Unit × σ) → Prop)
  | some (.ok _, s) => inferInstanceAs (Decidable (P s))
  | some (.error _, _) | none => isTrue trivial

/-- The state a call left satisfies `P` if the call succeeded, and `P'` if it failed. -/
def Ends (P P' : σ → Prop) : Option (Except ε Unit × σ) → Prop
  | some (.ok _, s) => P s
  | some (.error _, s) => P' s
  | none => True

instance [DecidablePred P] [DecidablePred P'] : DecidablePred (Ends P P' : Option (Except ε Unit × σ) → Prop)
  | some (.ok _, s) => inferInstanceAs (Decidable (P s))
  | some (.error _, s) => inferInstanceAs (Decidable (P' s))
  | none => isTrue trivial

/-- From a state with `P` the call makes only the changes `C`, whether it
succeeds or not, and a value it returns satisfies `Q` with the state it leaves. -/
def Does (C : σ → σ → Prop) (P : σ → Prop) (x : Call ε σ α) (Q : α → σ → Prop) : Prop :=
  ∀ s r t, P s → x s = some (r, t) → ReflTransGen C s t ∧ ∀ a, r = .ok a → Q a t

namespace Does

theorem conseq {x : Call ε σ α} (h : Does C P x Q) (hp : ∀ s, P' s → P s) (hq : ∀ a s, Q a s → Q' a s) :
    Does C P' x Q' := by
  intro s r t hs ht
  obtain ⟨hc, hr⟩ := h s r t (hp s hs) ht
  exact ⟨hc, fun a ha => hq a t (hr a ha)⟩

theorem weaken {x : Call ε σ α} (h : Does C P x Q) (hp : ∀ s, P' s → P s) : Does C P' x Q :=
  h.conseq hp fun _ _ hq => hq

theorem pure (a : α) (h : ∀ s, P s → Q a s) : Does C P (Pure.pure a : Call ε σ α) Q := by
  intro s r t hs ht
  obtain ⟨rfl, rfl⟩ := Prod.mk.inj (Option.some.inj ht)
  exact ⟨.refl, fun b hb => Except.ok.inj hb ▸ h s hs⟩

theorem bind {x : Call ε σ α} {f : α → Call ε σ β} (hx : Does C P x Q) (hf : ∀ a, Does C (Q a) (f a) R) :
    Does C P (x >>= f) R := by
  intro s r t hs ht
  rcases bind_cases ht with ⟨e, u, hu, hr⟩ | ⟨a, u, hu, hr⟩
  · obtain ⟨rfl, rfl⟩ := Prod.mk.inj hr
    exact ⟨(hx s _ t hs hu).1, fun b hb => nomatch hb⟩
  · obtain ⟨hc, hq⟩ := hx s _ u hs hu
    obtain ⟨hc', hr⟩ := hf a u r t (hq a rfl) hr
    exact ⟨hc.trans hc', hr⟩

theorem read {f : σ → Except ε α} (h : ∀ s a, P s → f s = .ok a → Q a s) : Does C P (Call.read f) Q := by
  intro s r t hs ht
  obtain ⟨rfl, rfl⟩ := Prod.mk.inj (Option.some.inj ht)
  exact ⟨.refl, fun a ha => h s a hs ha⟩

theorem update {f : σ → σ} {Q : Unit → σ → Prop} (hc : ∀ s, P s → C s (f s)) (hq : ∀ s, P s → Q () (f s)) :
    Does C P (Call.update f : Call ε σ Unit) Q := by
  intro s r t hs ht
  obtain ⟨rfl, rfl⟩ := Prod.mk.inj (Option.some.inj ht)
  exact ⟨.single (hc s hs), fun _ _ => hq s hs⟩

theorem attempt {f : σ → Option (α × σ)} (hc : ∀ s a t, P s → f s = some (a, t) → ReflTransGen C s t)
    (hq : ∀ s a t, P s → f s = some (a, t) → Q a t) : Does C P (Call.attempt f : Call ε σ α) Q := by
  intro s r t hs ht
  obtain ⟨⟨a, u⟩, ha, hr⟩ := Option.map_eq_some_iff.mp ht
  obtain ⟨rfl, rfl⟩ := Prod.mk.inj hr
  exact ⟨hc s a u hs ha, fun b hb => Except.ok.inj hb ▸ hq s a u hs ha⟩

theorem ignoring {x : Call ε σ Unit} {Q : Unit → σ → Prop} {Q' : Unit → σ → Prop} (h : Does C P x Q)
    (hq : ∀ s, Q' () s) : Does C P (Call.ignoring x) Q' := by
  intro s r t hs ht
  obtain ⟨⟨result, u⟩, hu, hr⟩ := Option.map_eq_some_iff.mp ht
  obtain ⟨rfl, rfl⟩ := Prod.mk.inj hr
  exact ⟨(h s result u hs hu).1, fun _ _ => hq u⟩

theorem ite {c : Prop} [Decidable c] {x y : Call ε σ α} (hx : c → Does C P x Q) (hy : ¬ c → Does C P y Q) :
    Does C P (if c then x else y) Q := by
  split
  · exact hx ‹_›
  · exact hy ‹_›

end Does

end Rustgo.Call
