import Mathlib.Algebra.GroupWithZero.Nat
import Mathlib.Data.String.Basic

namespace Rustgo

/-- A JSON value. A number is what is written of it, the fields of an object
stand in the order in which they are written. -/
inductive Json
  | null
  | bool (b : Bool)
  | number (digits : String)
  | string (s : String)
  | array (items : List Json)
  | object (fields : List (String × Json))

namespace Json

open String (utf8Len utf8Len_append)

def quote : Char := Char.ofNat 34
def backslash : Char := Char.ofNat 92

def hexDigit (n : Nat) : Char := if n < 10 then Char.ofNat (48 + n) else Char.ofNat (87 + n)

/-- What is written for a character of a string. Control characters without a
letter of their own are written with four hexadecimal digits. -/
def escape (c : Char) : List Char :=
  if c = quote then [backslash, quote]
  else if c = backslash then [backslash, backslash]
  else if c.toNat = 8 then [backslash, 'b']
  else if c.toNat = 9 then [backslash, 't']
  else if c.toNat = 10 then [backslash, 'n']
  else if c.toNat = 12 then [backslash, 'f']
  else if c.toNat = 13 then [backslash, 'r']
  else if c.toNat < 32 then [backslash, 'u', '0', '0', hexDigit (c.toNat / 16), hexDigit (c.toNat % 16)]
  else [c]

def escapeAll (cs : List Char) : List Char := cs.flatMap escape

def quoted (s : String) : List Char := quote :: escapeAll s.toList ++ [quote]

mutual

def text : Json → List Char
  | .null => ['n', 'u', 'l', 'l']
  | .bool true => ['t', 'r', 'u', 'e']
  | .bool false => ['f', 'a', 'l', 's', 'e']
  | .number digits => digits.toList
  | .string s => quoted s
  | .array items => '[' :: [','].intercalate (itemTexts items) ++ [']']
  | .object fields => Char.ofNat 123 :: [','].intercalate (fieldTexts fields) ++ [Char.ofNat 125]

def itemTexts : List Json → List (List Char)
  | [] => []
  | item :: items => item.text :: itemTexts items

def fieldTexts : List (String × Json) → List (List Char)
  | [] => []
  | (key, value) :: fields => (quoted key ++ ':' :: value.text) :: fieldTexts fields

end

/-- The length of the text in bytes. -/
def size (json : Json) : Nat := utf8Len json.text

/-- The value of a field, if the value is an object that has it. -/
def get (json : Json) (key : String) : Option Json :=
  match json with
  | .object fields => (fields.find? (·.1 = key)).map Prod.snd
  | _ => none

def asStr : Json → Option String
  | .string s => some s
  | _ => none

theorem itemTexts_eq_map (items : List Json) : itemTexts items = items.map text := by
  induction items with
  | nil => rw [itemTexts, List.map_nil]
  | cons item items ih => rw [itemTexts, ih, List.map_cons]

theorem fieldTexts_eq_map (fields : List (String × Json)) :
    fieldTexts fields = fields.map fun field => quoted field.1 ++ ':' :: field.2.text := by
  induction fields with
  | nil => rw [fieldTexts, List.map_nil]
  | cons field fields ih => rw [fieldTexts, ih, List.map_cons]

/-- The texts of a list are separated by commas. -/
theorem utf8Len_intercalate (t : List Char) (ts : List (List Char)) :
    utf8Len ([','].intercalate (t :: ts)) = utf8Len t + (ts.map fun u => utf8Len u + 1).sum := by
  induction ts generalizing t with
  | nil => simp
  | cons u ts ih =>
      have hcomma : utf8Len [','] = 1 := by decide
      rw [List.intercalate_cons_cons, utf8Len_append, utf8Len_append, ih, hcomma, List.map_cons, List.sum_cons]
      omega

/-- A list is as long as its items and one character for each of them more. -/
theorem size_array (item : Json) (items : List Json) :
    size (.array (item :: items)) = 1 + ((item :: items).map fun j => j.size + 1).sum := by
  rw [size, text, itemTexts_eq_map, List.map_cons]
  have hbracket : utf8Len [']'] = 1 := by decide
  have hopen : Char.utf8Size '[' = 1 := by decide
  rw [List.cons_append, String.utf8Len_cons, utf8Len_append, utf8Len_intercalate, hbracket, hopen, List.map_map,
    List.map_cons, List.sum_cons]
  simp only [Function.comp_def, size]
  omega

theorem size_array_nil : size (.array []) = 2 := by decide

/-- The length of a field with its colon. -/
def fieldSize (field : String × Json) : Nat := utf8Len (quoted field.1) + 1 + field.2.size

/-- An object is as long as its fields and one character for each of them more. -/
theorem size_object (field : String × Json) (fields : List (String × Json)) :
    size (.object (field :: fields)) = 1 + ((field :: fields).map fun f => fieldSize f + 1).sum := by
  rw [size, text, fieldTexts_eq_map, List.map_cons]
  have hclose : utf8Len [Char.ofNat 125] = 1 := by decide
  have hopen : (Char.ofNat 123).utf8Size = 1 := by decide
  have hcolon : Char.utf8Size ':' = 1 := by decide
  rw [List.cons_append, String.utf8Len_cons, utf8Len_append, utf8Len_intercalate, hclose, hopen, List.map_map,
    List.map_cons, List.sum_cons]
  simp only [Function.comp_def, fieldSize, size, utf8Len_append, String.utf8Len_cons, hcolon]
  have hsum : ∀ g : String × Json → Nat, (fun f : String × Json => utf8Len (quoted f.1) + (g f + 1) + 1) =
      fun f => utf8Len (quoted f.1) + 1 + g f + 1 := fun g => funext fun f => by omega
  rw [hsum fun f => utf8Len f.2.text]
  omega

/-- The length of what is written for a string, without the quotes. -/
def written (s : String) : Nat := utf8Len (escapeAll s.toList)

theorem size_string (s : String) : size (.string s) = written s + 2 := by
  have hquote : Char.utf8Size quote = 1 := by decide
  have hlast : utf8Len [quote] = 1 := by decide
  rw [size, text, quoted, List.cons_append, String.utf8Len_cons, utf8Len_append, hquote, hlast, written]

end Json

end Rustgo
