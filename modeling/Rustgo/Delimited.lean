import Rustgo.Bytes
import Mathlib.Logic.Function.Basic

namespace Rustgo

variable {α β γ δ : Type}

/-- Where the code of a value with `P` ends, and of which value it is, can be
told whatever follows it. -/
def Delimited (P : α → Prop) (code : α → List β) : Prop :=
  ∀ a b, P a → P b → ∀ xs ys, code a ++ xs = code b ++ ys → a = b ∧ xs = ys

namespace Delimited

variable {P : α → Prop} {Q : γ → Prop} {code : α → List β} {first : γ → List β} {rest : α → List β}

theorem injective (h : Delimited P code) {a b : α} (ha : P a) (hb : P b) (heq : code a = code b) : a = b :=
  (h a b ha hb [] [] (by rw [heq])).1

theorem mono {P' : α → Prop} (h : Delimited P code) (hp : ∀ a, P' a → P a) : Delimited P' code :=
  fun a b ha hb => h a b (hp a ha) (hp b hb)

/-- Codes of one length. -/
theorem of_length (hl : ∀ a b, P a → P b → (code a).length = (code b).length)
    (hi : ∀ a b, P a → P b → code a = code b → a = b) : Delimited P code := by
  intro a b ha hb xs ys h
  obtain ⟨hcode, hrest⟩ := List.append_inj h (hl a b ha hb)
  exact ⟨hi a b ha hb hcode, hrest⟩

/-- The code of what a value is determined by. -/
theorem comap {f : γ → α} (h : Delimited P code) (hf : ∀ a b, f a = f b → a = b) :
    Delimited (fun a => P (f a)) fun a => code (f a) := by
  intro a b ha hb xs ys heq
  obtain ⟨hab, hrest⟩ := h _ _ ha hb xs ys heq
  exact ⟨hf a b hab, hrest⟩

/-- A first part that says how the rest of the code is to be read. -/
theorem dependent (key : α → γ) (hfirst : Delimited Q first) (hkey : ∀ a, P a → Q (key a))
    (hrest : ∀ k, Delimited (fun a => P a ∧ key a = k) rest) : Delimited P fun a => first (key a) ++ rest a := by
  intro a b ha hb xs ys h
  rw [List.append_assoc, List.append_assoc] at h
  obtain ⟨hk, h⟩ := hfirst _ _ (hkey a ha) (hkey b hb) _ _ h
  exact hrest (key b) a b ⟨ha, hk⟩ ⟨hb, rfl⟩ xs ys h

/-- Two parts that together determine the value. -/
theorem both {second : δ → List β} {R : δ → Prop} {left : α → γ} {right : α → δ} (hfirst : Delimited Q first)
    (hsecond : Delimited R second) (hl : ∀ a, P a → Q (left a)) (hr : ∀ a, P a → R (right a))
    (hlr : ∀ a b, left a = left b → right a = right b → a = b) :
    Delimited P fun a => first (left a) ++ second (right a) := by
  refine dependent left hfirst hl fun k a b ha hb xs ys h => ?_
  obtain ⟨hright, hrest⟩ := hsecond _ _ (hr a ha.1) (hr b hb.1) xs ys h
  exact ⟨hlr a b (ha.2.trans hb.2.symm) hright, hrest⟩

/-- One symbol names the case, and the rest is read as that case is. -/
theorem tagged {tag : α → β} (hrest : ∀ k, Delimited (fun a => P a ∧ tag a = k) rest) :
    Delimited P fun a => [tag a] ++ rest a := by
  have hsymbol : Delimited (fun _ => True) fun symbol : β => [symbol] :=
    of_length (fun _ _ _ _ => rfl) fun _ _ _ _ h => List.singleton_inj.mp h
  exact dependent tag hsymbol (fun _ _ => trivial) hrest

/-- As many codes one after another as are known to be there. -/
theorem items {p : α → Prop} (h : Delimited p code) (n : Nat) :
    Delimited (fun as : List α => (∀ a ∈ as, p a) ∧ as.length = n) fun as => as.flatMap code := by
  intro as
  induction as generalizing n with
  | nil =>
      intro bs ha hb xs ys heq
      obtain rfl : bs = [] := List.length_eq_zero_iff.mp (hb.2.trans ha.2.symm)
      exact ⟨rfl, heq⟩
  | cons a as ih =>
      intro bs ha hb xs ys heq
      cases bs with
      | nil => exact absurd (ha.2.trans hb.2.symm) (by simp)
      | cons b bs =>
          simp only [List.flatMap_cons, List.append_assoc] at heq
          obtain ⟨rfl, htail⟩ := h a b (ha.1 a List.mem_cons_self) (hb.1 b List.mem_cons_self) _ _ heq
          have hlength : as.length = bs.length := by simpa using ha.2.trans hb.2.symm
          obtain ⟨rfl, hrest⟩ := ih bs.length bs ⟨fun a h => ha.1 a (List.mem_cons_of_mem _ h), hlength⟩
            ⟨fun b h => hb.1 b (List.mem_cons_of_mem _ h), rfl⟩ xs ys htail
          exact ⟨rfl, hrest⟩

/-- A fixed beginning changes nothing. -/
theorem behind (h : Delimited P code) (start : List β) : Delimited P fun a => start ++ code a := by
  intro a b ha hb xs ys heq
  rw [List.append_assoc, List.append_assoc] at heq
  exact h a b ha hb xs ys (List.append_cancel_left heq)

section Bytes

/-- A number in as many bytes as hold it. -/
theorem number (w : Nat) : Delimited (fun n => n < 256 ^ w) (be w) :=
  of_length (fun _ _ _ _ => by rw [length_be, length_be]) fun _ _ hm hn h => be_injective hm hn h

theorem uInt16 : Delimited (fun _ => True) fun n : UInt16 => be 2 n.toNat :=
  ((number 2).comap fun _ _ h => UInt16.toNat_inj.mp h).mono fun n _ => n.toNat_lt

theorem uInt32 : Delimited (fun _ => True) fun n : UInt32 => be 4 n.toNat :=
  ((number 4).comap fun _ _ h => UInt32.toNat_inj.mp h).mono fun n _ => n.toNat_lt

theorem uInt64 : Delimited (fun _ => True) fun n : UInt64 => be 8 n.toNat :=
  ((number 8).comap fun _ _ h => UInt64.toNat_inj.mp h).mono fun n _ => n.toNat_lt

/-- A byte string behind its length. -/
theorem prefixed (w : Nat) : Delimited (fun value : Bytes => value.length < 256 ^ w) fun value =>
    be w value.length ++ value :=
  dependent List.length (number w) (fun _ h => h) fun _ =>
    of_length (fun _ _ ha hb => ha.2.trans hb.2.symm) fun _ _ _ _ h => h

/-- The codes of a list behind their number. -/
theorem counted {code : α → Bytes} {p : α → Prop} (h : Delimited p code) (w : Nat) :
    Delimited (fun as : List α => (∀ a ∈ as, p a) ∧ as.length < 256 ^ w) fun as => be w as.length ++ as.flatMap code :=
  dependent List.length (number w) (fun _ hp => hp.2) fun n =>
    (items h n).mono fun _ hp => ⟨hp.1.1, hp.2⟩

end Bytes

end Delimited

/-- The codes of all values are delimited. -/
abbrev SelfDelimited (code : α → List β) : Prop := Delimited (fun _ => True) code

namespace SelfDelimited

variable {code : α → List β} {second : γ → List β}

theorem injective (h : SelfDelimited code) : Function.Injective code := fun _ _ heq => Delimited.injective h trivial trivial heq

theorem comap {f : γ → α} (h : SelfDelimited code) (hf : ∀ a b, f a = f b → a = b) : SelfDelimited fun a => code (f a) :=
  Delimited.comap h hf

theorem pair (hfirst : SelfDelimited code) (hsecond : SelfDelimited second) :
    SelfDelimited fun p : α × γ => code p.1 ++ second p.2 :=
  Delimited.both hfirst hsecond (fun _ _ => trivial) (fun _ _ => trivial) fun _ _ => Prod.ext

theorem symbol : SelfDelimited fun b : β => [b] :=
  Delimited.of_length (fun _ _ _ _ => rfl) fun _ _ _ _ h => List.singleton_inj.mp h

end SelfDelimited

end Rustgo
