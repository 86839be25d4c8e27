import Mathlib.Data.List.Basic

namespace Rustgo.AeadTable

variable {Key Text : Type} [DecidableEq Key] [DecidableEq Text]

structure Entry (Key Text : Type) where
  key : Key
  nonce : Text
  aad : Text
  plaintext : Text
  ciphertext : Text

def Entry.Matches (e : Entry Key Text) (key : Key) (nonce aad ciphertext : Text) : Prop :=
  e.key = key ∧ e.nonce = nonce ∧ e.aad = aad ∧ e.ciphertext = ciphertext

instance (e : Entry Key Text) (key : Key) (nonce aad ciphertext : Text) :
    Decidable (e.Matches key nonce aad ciphertext) :=
  inferInstanceAs (Decidable (_ ∧ _ ∧ _ ∧ _))

/-- An ideal authenticated cipher keeps what was sealed and opens nothing else:
not under another key, nonce or associated data, and no changed ciphertext. -/
def decrypt (log : List (Entry Key Text)) (key : Key) (nonce aad ciphertext : Text) : Option Text :=
  (log.find? fun e => e.Matches key nonce aad ciphertext).map Entry.plaintext

theorem decrypt_sound {log : List (Entry Key Text)} {key : Key} {nonce aad ciphertext plaintext : Text}
    (h : decrypt log key nonce aad ciphertext = some plaintext) :
    ∃ e ∈ log, e.Matches key nonce aad ciphertext ∧ e.plaintext = plaintext := by
  obtain ⟨e, he, hp⟩ := Option.map_eq_some_iff.mp h
  exact ⟨e, List.mem_of_find?_eq_some he, by simpa using List.find?_some he, hp⟩

theorem decrypt_complete {log : List (Entry Key Text)} {e : Entry Key Text} (he : e ∈ log)
    (hunique : ∀ e' ∈ log, e'.key = e.key → e'.nonce = e.nonce → e'.plaintext = e.plaintext) :
    decrypt log e.key e.nonce e.aad e.ciphertext = some e.plaintext := by
  have hself : e.Matches e.key e.nonce e.aad e.ciphertext := ⟨rfl, rfl, rfl, rfl⟩
  cases hf : log.find? (fun e' => e'.Matches e.key e.nonce e.aad e.ciphertext) with
  | none => exact absurd hself (by simpa using List.find?_eq_none.mp hf e he)
  | some e' =>
      have hm : e'.Matches e.key e.nonce e.aad e.ciphertext := by simpa using List.find?_some hf
      rw [decrypt, hf, Option.map_some, hunique e' (List.mem_of_find?_eq_some hf) hm.1 hm.2.1]

end Rustgo.AeadTable
