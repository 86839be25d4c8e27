import Mathlib.Data.List.Basic
import Mathlib.Order.Basic

namespace Rustgo

variable {α β ε : Type}

/-- A decoder that takes one item off the front of its input: what it answers
does not change when more arrives, except that there was too little of it. -/
structure Incremental (decode : List β → Except ε (Option α × List β)) : Prop where
  complete : ∀ {input a rest}, decode input = .ok (some a, rest) →
    (∀ more, decode (input ++ more) = .ok (some a, rest ++ more)) ∧ rest.length < input.length
  incomplete : ∀ {input rest}, decode input = .ok (none, rest) → rest = input
  failed : ∀ {input e}, decode input = .error e → ∀ more, decode (input ++ more) = .error e

/-- The items that an input decodes to one after another, the first error, and
the part of the input before which it stops. -/
inductive Decodes (decode : List β → Except ε (Option α × List β)) : List β → List α → Option ε → List β → Prop
  | item {input a next items error rest} : decode input = .ok (some a, next) → Decodes decode next items error rest →
      Decodes decode input (a :: items) error rest
  | incomplete {input rest} : decode input = .ok (none, rest) → Decodes decode input [] none input
  | failed {input e} : decode input = .error e → Decodes decode input [] (some e) input

namespace Decodes

variable {decode : List β → Except ε (Option α × List β)} {input rest rest' : List β} {items items' : List α}
  {error error' : Option ε}

theorem total (h : Incremental decode) (input : List β) : ∃ items error rest, Decodes decode input items error rest := by
  induction hn : input.length using Nat.strongRecOn generalizing input with
  | ind n ih =>
      subst hn
      cases hdecode : decode input with
      | error e => exact ⟨[], some e, input, .failed hdecode⟩
      | ok answer =>
          obtain ⟨item, next⟩ := answer
          cases item with
          | none => exact ⟨[], none, input, .incomplete hdecode⟩
          | some a =>
              obtain ⟨items, error, rest, hrest⟩ := ih next.length (h.complete hdecode).2 next rfl
              exact ⟨a :: items, error, rest, .item hdecode hrest⟩

theorem unique (h : Decodes decode input items error rest) (h' : Decodes decode input items' error' rest') :
    items = items' ∧ error = error' ∧ rest = rest' := by
  induction h generalizing items' with
  | item hdecode _ ih =>
      cases h' with
      | item hdecode' hrest' =>
          obtain ⟨ha, rfl⟩ := Prod.mk.inj (Except.ok.inj (hdecode.symm.trans hdecode'))
          obtain rfl := Option.some.inj ha
          obtain ⟨rfl, herror, hrest⟩ := ih hrest'
          exact ⟨rfl, herror, hrest⟩
      | incomplete hdecode' => cases hdecode.symm.trans hdecode'
      | failed hdecode' => cases hdecode.symm.trans hdecode'
  | incomplete hdecode =>
      cases h' with
      | item hdecode' _ => cases hdecode.symm.trans hdecode'
      | incomplete _ => exact ⟨rfl, rfl, rfl⟩
      | failed hdecode' => cases hdecode.symm.trans hdecode'
  | failed hdecode =>
      cases h' with
      | item hdecode' _ => cases hdecode.symm.trans hdecode'
      | incomplete hdecode' => cases hdecode.symm.trans hdecode'
      | failed hdecode' => exact ⟨rfl, congrArg some (Except.error.inj (hdecode.symm.trans hdecode')), rfl⟩

end Decodes

end Rustgo
