import Rustgo.Numerals

namespace Rustgo.Toml

open Numerals

/-- A text in which placeholders may stand for characters that are not known yet. -/
inductive Piece
  | char (c : Char)
  | placeholder (name : List Char)
  deriving DecidableEq

/-- What a document is read from: its strings, and the characters around them that are not in a comment. The content of
the strings that are not basic is left as it is written. -/
inductive Lexeme
  | plain (c : Char)
  | basic (content : List Piece)
  | multiBasic (raw : List Char)
  | literal (raw : List Char)
  | multiLiteral (raw : List Char)
  deriving DecidableEq

inductive Mode
  | plain
  | closed
  | comment
  | opened
  | basic (content : List Piece)
  | escape (content : List Piece)
  | unicode (content : List Piece) (digits code : Nat)
  | doubled
  | multi (raw : List Char)
  | multiEscape (raw : List Char)
  | multiQuotes (raw : List Char) (quotes : Nat)
  | literalOpened
  | literal (raw : List Char)
  | literalDoubled
  | multiLiteral (raw : List Char)
  | multiLiteralQuotes (raw : List Char) (quotes : Nat)

structure Lexer where
  lexemes : List Lexeme
  mode : Mode

/-- A tab is the only control character in a string of one line. -/
def isStringChar (c : Char) : Bool := c = '\t' || (0x20 ≤ c.toNat && c.toNat ≠ 0x7F)

/-- The escapes of one character. -/
def escapeChar : Char → Option Char
  | 'b' => some '\x08'
  | 't' => some '\t'
  | 'n' => some '\n'
  | 'f' => some '\x0c'
  | 'r' => some '\r'
  | 'e' => some '\x1b'
  | '"' => some '"'
  | '\\' => some '\\'
  | _ => none

/-- How many digits follow the other escapes. -/
def escapeDigits : Char → Option Nat
  | 'x' => some 2
  | 'u' => some 4
  | 'U' => some 8
  | _ => none

section Read

variable (lexemes : List Lexeme)

def outside (c : Char) : Option Lexer :=
  if c = '"' then some ⟨lexemes, .opened⟩
  else if c = '\'' then some ⟨lexemes, .literalOpened⟩
  else if c = '#' then some ⟨lexemes, .comment⟩
  else some ⟨lexemes ++ [.plain c], .plain⟩

/-- No string follows a string directly. -/
def afterString (c : Char) : Option Lexer := if c = '"' ∨ c = '\'' then none else outside lexemes c

def inBasic (content : List Piece) (c : Char) : Option Lexer :=
  if c = '"' then some ⟨lexemes ++ [.basic content], .closed⟩
  else if c = '\\' then some ⟨lexemes, .escape content⟩
  else if isStringChar c then some ⟨lexemes, .basic (content ++ [.char c])⟩
  else none

def inEscape (content : List Piece) (c : Char) : Option Lexer :=
  match escapeChar c, escapeDigits c with
  | some d, _ => some ⟨lexemes, .basic (content ++ [.char d])⟩
  | none, some digits => some ⟨lexemes, .unicode content digits 0⟩
  | none, none => none

def inUnicode (content : List Piece) (digits code : Nat) (c : Char) : Option Lexer :=
  let code := code * 16 + digitValue c
  if isDigit 16 c = false then none
  else if 1 < digits then some ⟨lexemes, .unicode content (digits - 1) code⟩
  else if code.isValidChar then some ⟨lexemes, .basic (content ++ [.char (Char.ofNat code)])⟩
  else none

def inMulti (raw : List Char) (c : Char) : Option Lexer :=
  if c = '"' then some ⟨lexemes, .multiQuotes raw 1⟩
  else if c = '\\' then some ⟨lexemes, .multiEscape (raw ++ [c])⟩
  else some ⟨lexemes, .multi (raw ++ [c])⟩

def inLiteral (raw : List Char) (c : Char) : Option Lexer :=
  if c = '\'' then some ⟨lexemes ++ [.literal raw], .closed⟩
  else if isStringChar c then some ⟨lexemes, .literal (raw ++ [c])⟩
  else none

def inMultiLiteral (raw : List Char) (c : Char) : Option Lexer :=
  if c = '\'' then some ⟨lexemes, .multiLiteralQuotes raw 1⟩ else some ⟨lexemes, .multiLiteral (raw ++ [c])⟩

end Read

/-- Up to two quotes may stand right before the three that end a string of several lines. -/
def Lexer.step (s : Lexer) (c : Char) : Option Lexer :=
  match s.mode with
  | .plain => outside s.lexemes c
  | .closed => afterString s.lexemes c
  | .comment => if c = '\n' then some ⟨s.lexemes ++ [.plain c], .plain⟩ else some s
  | .opened => if c = '"' then some ⟨s.lexemes, .doubled⟩ else inBasic s.lexemes [] c
  | .basic content => inBasic s.lexemes content c
  | .escape content => inEscape s.lexemes content c
  | .unicode content digits code => inUnicode s.lexemes content digits code c
  | .doubled => if c = '"' then some ⟨s.lexemes, .multi []⟩ else afterString (s.lexemes ++ [.basic []]) c
  | .multi raw => inMulti s.lexemes raw c
  | .multiEscape raw => some ⟨s.lexemes, .multi (raw ++ [c])⟩
  | .multiQuotes raw quotes =>
      if c = '"' then if quotes < 5 then some ⟨s.lexemes, .multiQuotes raw (quotes + 1)⟩ else none
      else if quotes < 3 then inMulti s.lexemes (raw ++ List.replicate quotes '"') c
      else afterString (s.lexemes ++ [.multiBasic (raw ++ List.replicate (quotes - 3) '"')]) c
  | .literalOpened => if c = '\'' then some ⟨s.lexemes, .literalDoubled⟩ else inLiteral s.lexemes [] c
  | .literal raw => inLiteral s.lexemes raw c
  | .literalDoubled => if c = '\'' then some ⟨s.lexemes, .multiLiteral []⟩ else afterString (s.lexemes ++ [.literal []]) c
  | .multiLiteral raw => inMultiLiteral s.lexemes raw c
  | .multiLiteralQuotes raw quotes =>
      if c = '\'' then if quotes < 5 then some ⟨s.lexemes, .multiLiteralQuotes raw (quotes + 1)⟩ else none
      else if quotes < 3 then inMultiLiteral s.lexemes (raw ++ List.replicate quotes '\'') c
      else afterString (s.lexemes ++ [.multiLiteral (raw ++ List.replicate (quotes - 3) '\'')]) c

/-- A placeholder stands for itself inside a basic string, and nowhere else. -/
def Lexer.read (s : Lexer) : Piece → Option Lexer
  | .char c => s.step c
  | .placeholder name =>
      match s.mode with
      | .opened => some ⟨s.lexemes, .basic [.placeholder name]⟩
      | .basic content => some ⟨s.lexemes, .basic (content ++ [.placeholder name])⟩
      | _ => none

def Lexer.finish (s : Lexer) : Option (List Lexeme) :=
  match s.mode with
  | .plain | .closed | .comment => some s.lexemes
  | .doubled => some (s.lexemes ++ [.basic []])
  | .multiQuotes raw quotes => if quotes < 3 then none else some (s.lexemes ++ [.multiBasic (raw ++ List.replicate (quotes - 3) '"')])
  | .literalDoubled => some (s.lexemes ++ [.literal []])
  | .multiLiteralQuotes raw quotes =>
      if quotes < 3 then none else some (s.lexemes ++ [.multiLiteral (raw ++ List.replicate (quotes - 3) '\'')])
  | _ => none

def Lexer.run (s : Lexer) : List Piece → Option Lexer
  | [] => some s
  | piece :: pieces => (s.read piece).bind fun t => run t pieces

/-- The lexemes of a document, if its strings are well formed. -/
def lex (pieces : List Piece) : Option (List Lexeme) := (Lexer.run ⟨[], .plain⟩ pieces).bind Lexer.finish

section Expand

variable (value : List Char → List Char)

/-- The characters that a placeholder stands for. -/
def Piece.expand : Piece → List Char
  | .char c => [c]
  | .placeholder name => value name

def expandContent (content : List Piece) : List Piece := (content.flatMap (Piece.expand value)).map .char

def Lexeme.expand : Lexeme → Lexeme
  | .basic content => .basic (expandContent value content)
  | lexeme => lexeme

def Mode.expand : Mode → Mode
  | .basic content => .basic (expandContent value content)
  | .escape content => .escape (expandContent value content)
  | .unicode content digits code => .unicode (expandContent value content) digits code
  | mode => mode

def Lexer.expand (s : Lexer) : Lexer := ⟨s.lexemes.map (Lexeme.expand value), s.mode.expand value⟩

variable {value} {lexemes : List Lexeme} {content : List Piece} {s t : Lexer} {c : Char}

theorem expandContent_append (content more : List Piece) :
    expandContent value (content ++ more) = expandContent value content ++ expandContent value more := by
  rw [expandContent, List.flatMap_append, List.map_append]
  rfl

theorem map_outside : (outside lexemes c).map (Lexer.expand value) = outside (lexemes.map (Lexeme.expand value)) c := by
  unfold outside
  split_ifs <;> simp [Lexer.expand, Mode.expand, Lexeme.expand]

theorem map_afterString : (afterString lexemes c).map (Lexer.expand value) = afterString (lexemes.map (Lexeme.expand value)) c := by
  unfold afterString
  split
  · rfl
  · exact map_outside

theorem map_inBasic : (inBasic lexemes content c).map (Lexer.expand value) =
    inBasic (lexemes.map (Lexeme.expand value)) (expandContent value content) c := by
  unfold inBasic
  split_ifs <;> simp [Lexer.expand, Mode.expand, Lexeme.expand, expandContent, Piece.expand]

theorem map_inEscape : (inEscape lexemes content c).map (Lexer.expand value) =
    inEscape (lexemes.map (Lexeme.expand value)) (expandContent value content) c := by
  unfold inEscape
  cases escapeChar c <;> cases escapeDigits c <;>
    simp [Lexer.expand, Mode.expand, expandContent, Piece.expand]

theorem map_inUnicode {digits code : Nat} : (inUnicode lexemes content digits code c).map (Lexer.expand value) =
    inUnicode (lexemes.map (Lexeme.expand value)) (expandContent value content) digits code c := by
  unfold inUnicode
  dsimp only
  split_ifs <;> simp [Lexer.expand, Mode.expand, expandContent, Piece.expand]

theorem map_inMulti {raw : List Char} : (inMulti lexemes raw c).map (Lexer.expand value) = inMulti (lexemes.map (Lexeme.expand value)) raw c := by
  unfold inMulti
  split_ifs <;> rfl

theorem map_inLiteral {raw : List Char} : (inLiteral lexemes raw c).map (Lexer.expand value) =
    inLiteral (lexemes.map (Lexeme.expand value)) raw c := by
  unfold inLiteral
  split_ifs <;> simp [Lexer.expand, Mode.expand, Lexeme.expand]

theorem map_inMultiLiteral {raw : List Char} : (inMultiLiteral lexemes raw c).map (Lexer.expand value) =
    inMultiLiteral (lexemes.map (Lexeme.expand value)) raw c := by
  unfold inMultiLiteral
  split_ifs <;> rfl

/-- The characters around a placeholder are read alike whatever it stands for. -/
theorem map_step : (s.step c).map (Lexer.expand value) = (s.expand value).step c := by
  obtain ⟨lexemes, mode⟩ := s
  cases mode with
  | plain => exact map_outside
  | closed => exact map_afterString
  | comment =>
      simp only [Lexer.step, Lexer.expand, Mode.expand]
      split_ifs <;> simp [Lexer.expand, Mode.expand, Lexeme.expand]
  | opened =>
      simp only [Lexer.step, Lexer.expand, Mode.expand]
      split_ifs
      · rfl
      · exact map_inBasic
  | basic content => exact map_inBasic
  | escape content => exact map_inEscape
  | unicode content digits code => exact map_inUnicode
  | doubled =>
      simp only [Lexer.step, Lexer.expand, Mode.expand]
      split_ifs
      · rfl
      · rw [map_afterString, List.map_append]
        rfl
  | multi raw => exact map_inMulti
  | multiEscape raw => rfl
  | multiQuotes raw quotes =>
      simp only [Lexer.step, Lexer.expand, Mode.expand]
      split_ifs
      · rfl
      · rfl
      · exact map_inMulti
      · rw [map_afterString, List.map_append]
        rfl
  | literalOpened =>
      simp only [Lexer.step, Lexer.expand, Mode.expand]
      split_ifs
      · rfl
      · exact map_inLiteral
  | literal raw => exact map_inLiteral
  | literalDoubled =>
      simp only [Lexer.step, Lexer.expand, Mode.expand]
      split_ifs
      · rfl
      · rw [map_afterString, List.map_append]
        rfl
  | multiLiteral raw => exact map_inMultiLiteral
  | multiLiteralQuotes raw quotes =>
      simp only [Lexer.step, Lexer.expand, Mode.expand]
      split_ifs
      · rfl
      · rfl
      · exact map_inMultiLiteral
      · rw [map_afterString, List.map_append]
        rfl

theorem map_finish : s.finish.map (List.map (Lexeme.expand value)) = (s.expand value).finish := by
  obtain ⟨lexemes, mode⟩ := s
  cases mode <;> simp only [Lexer.finish, Lexer.expand, Mode.expand]
  all_goals first | rfl | (split_ifs <;> simp [Lexeme.expand]) | simp [Lexeme.expand, expandContent]

end Expand

theorem Lexer.run_append (s : Lexer) (before after : List Piece) : s.run (before ++ after) = (s.run before).bind fun t => t.run after := by
  induction before generalizing s with
  | nil => rfl
  | cons piece before ih =>
      rw [List.cons_append, Lexer.run, Lexer.run, Option.bind_assoc]
      exact Option.bind_congr fun t _ => ih t

section Extends

variable {s t : Lexer} {lexemes document : List Lexeme} {content : List Piece} {raw : List Char} {piece : Piece} {pieces : List Piece} {c : Char}

theorem extends_outside (h : outside lexemes c = some t) : lexemes <+: t.lexemes := by
  unfold outside at h
  split_ifs at h <;> obtain rfl := Option.some.inj h <;> simp

theorem extends_afterString (h : afterString lexemes c = some t) : lexemes <+: t.lexemes := by
  unfold afterString at h
  split at h
  · cases h
  · exact extends_outside h

theorem extends_inBasic (h : inBasic lexemes content c = some t) : lexemes <+: t.lexemes := by
  unfold inBasic at h
  split_ifs at h <;> obtain rfl := Option.some.inj h <;> simp

theorem extends_inEscape (h : inEscape lexemes content c = some t) : lexemes <+: t.lexemes := by
  unfold inEscape at h
  split at h
  · obtain rfl := Option.some.inj h
    exact List.prefix_refl _
  · obtain rfl := Option.some.inj h
    exact List.prefix_refl _
  · cases h

theorem extends_inUnicode {digits code : Nat} (h : inUnicode lexemes content digits code c = some t) : lexemes <+: t.lexemes := by
  unfold inUnicode at h
  dsimp only at h
  split_ifs at h <;> obtain rfl := Option.some.inj h <;> simp

theorem extends_inMulti (h : inMulti lexemes raw c = some t) : lexemes <+: t.lexemes := by
  unfold inMulti at h
  split_ifs at h <;> obtain rfl := Option.some.inj h <;> simp

theorem extends_inLiteral (h : inLiteral lexemes raw c = some t) : lexemes <+: t.lexemes := by
  unfold inLiteral at h
  split_ifs at h <;> obtain rfl := Option.some.inj h <;> simp

theorem extends_inMultiLiteral (h : inMultiLiteral lexemes raw c = some t) : lexemes <+: t.lexemes := by
  unfold inMultiLiteral at h
  split_ifs at h <;> obtain rfl := Option.some.inj h <;> simp

/-- A lexeme that has been read stays. -/
theorem extends_step (h : s.step c = some t) : s.lexemes <+: t.lexemes := by
  obtain ⟨lexemes, mode⟩ := s
  cases mode with
  | plain => exact extends_outside h
  | closed => exact extends_afterString h
  | comment =>
      simp only [Lexer.step] at h
      split_ifs at h <;> obtain rfl := Option.some.inj h <;> simp
  | opened =>
      simp only [Lexer.step] at h
      split_ifs at h
      · exact Option.some.inj h ▸ List.prefix_refl _
      · exact extends_inBasic h
  | basic content => exact extends_inBasic h
  | escape content => exact extends_inEscape h
  | unicode content digits code => exact extends_inUnicode h
  | doubled | literalDoubled =>
      simp only [Lexer.step] at h
      split_ifs at h
      · exact Option.some.inj h ▸ List.prefix_refl _
      · exact (List.prefix_append _ _).trans (extends_afterString h)
  | multi raw => exact extends_inMulti h
  | multiEscape raw => exact Option.some.inj h ▸ List.prefix_refl _
  | multiQuotes raw quotes =>
      simp only [Lexer.step] at h
      split_ifs at h
      · exact Option.some.inj h ▸ List.prefix_refl _
      · exact extends_inMulti h
      · exact (List.prefix_append _ _).trans (extends_afterString h)
  | literalOpened =>
      simp only [Lexer.step] at h
      split_ifs at h
      · exact Option.some.inj h ▸ List.prefix_refl _
      · exact extends_inLiteral h
  | literal raw => exact extends_inLiteral h
  | multiLiteral raw => exact extends_inMultiLiteral h
  | multiLiteralQuotes raw quotes =>
      simp only [Lexer.step] at h
      split_ifs at h
      · exact Option.some.inj h ▸ List.prefix_refl _
      · exact extends_inMultiLiteral h
      · exact (List.prefix_append _ _).trans (extends_afterString h)

theorem extends_read (h : s.read piece = some t) : s.lexemes <+: t.lexemes := by
  cases piece with
  | char c => exact extends_step h
  | placeholder name =>
      simp only [Lexer.read] at h
      split at h
      · exact Option.some.inj h ▸ List.prefix_refl _
      · exact Option.some.inj h ▸ List.prefix_refl _
      · cases h

theorem extends_finish (h : s.finish = some document) : s.lexemes <+: document := by
  unfold Lexer.finish at h
  split at h
  · exact Option.some.inj h ▸ List.prefix_refl _
  · exact Option.some.inj h ▸ List.prefix_refl _
  · exact Option.some.inj h ▸ List.prefix_refl _
  · exact Option.some.inj h ▸ List.prefix_append _ _
  · split at h
    · cases h
    · exact Option.some.inj h ▸ List.prefix_append _ _
  · exact Option.some.inj h ▸ List.prefix_append _ _
  · split at h
    · cases h
    · exact Option.some.inj h ▸ List.prefix_append _ _
  · cases h

theorem extends_document (h : (s.run pieces).bind Lexer.finish = some document) : s.lexemes <+: document := by
  induction pieces generalizing s with
  | nil => exact extends_finish h
  | cons piece pieces ih =>
      rw [Lexer.run, Option.bind_assoc] at h
      obtain ⟨t, hread, h⟩ := Option.bind_eq_some_iff.mp h
      exact (extends_read hread).trans (ih h)

/-- The next lexeme is of a kind, once it has been read. -/
def Reaches (lexemes : List Lexeme) (P : Lexeme → Prop) (M : Mode → Prop) (s : Lexer) : Prop :=
  s.lexemes = lexemes ∧ M s.mode ∨ ∃ lexeme, P lexeme ∧ lexemes ++ [lexeme] <+: s.lexemes

theorem reaches_document {P : Lexeme → Prop} {M : Mode → Prop}
    (hstep : ∀ mode piece t, M mode → (⟨lexemes, mode⟩ : Lexer).read piece = some t → Reaches lexemes P M t)
    (hfinish : ∀ mode document, M mode → (⟨lexemes, mode⟩ : Lexer).finish = some document → ∃ lexeme, P lexeme ∧ lexemes ++ [lexeme] <+: document)
    (h : Reaches lexemes P M s) (hdocument : (s.run pieces).bind Lexer.finish = some document) :
    ∃ lexeme, P lexeme ∧ lexemes ++ [lexeme] <+: document := by
  induction pieces generalizing s with
  | nil =>
      rcases h with ⟨rfl, hmode⟩ | ⟨lexeme, hlexeme, hextends⟩
      · exact hfinish s.mode document hmode hdocument
      · exact ⟨lexeme, hlexeme, hextends.trans (extends_finish hdocument)⟩
  | cons piece pieces ih =>
      rw [Lexer.run, Option.bind_assoc] at hdocument
      obtain ⟨t, hread, hdocument⟩ := Option.bind_eq_some_iff.mp hdocument
      refine ih ?_ hdocument
      rcases h with ⟨rfl, hmode⟩ | ⟨lexeme, hlexeme, hextends⟩
      · exact hstep s.mode piece t hmode hread
      · exact .inr ⟨lexeme, hlexeme, hextends.trans (extends_read hread)⟩

/-- A basic string is being read whose content begins in some way. -/
def InString (content : List Piece) : Mode → Prop
  | .basic full | .escape full | .unicode full _ _ => content <+: full
  | _ => False

def IsString (content : List Piece) (lexeme : Lexeme) : Prop := ∃ full, content <+: full ∧ lexeme = .basic full

theorem reaches_inString {mode : Mode} (h : InString content mode) (hread : (⟨lexemes, mode⟩ : Lexer).read piece = some t) :
    Reaches lexemes (IsString content) (InString content) t := by
  cases piece with
  | placeholder name =>
      cases mode with
      | basic full =>
          obtain rfl := Option.some.inj hread
          exact .inl ⟨rfl, h.trans (List.prefix_append _ _)⟩
      | escape full | unicode full digits code => cases hread
      | _ => cases h
  | char c =>
      cases mode with
      | basic full =>
          change inBasic lexemes full c = some t at hread
          unfold inBasic at hread
          split_ifs at hread <;> obtain rfl := Option.some.inj hread
          · exact .inr ⟨_, ⟨full, h, rfl⟩, List.prefix_refl _⟩
          · exact .inl ⟨rfl, h⟩
          · exact .inl ⟨rfl, h.trans (List.prefix_append _ _)⟩
      | escape full =>
          change inEscape lexemes full c = some t at hread
          unfold inEscape at hread
          split at hread
          · exact Option.some.inj hread ▸ .inl ⟨rfl, h.trans (List.prefix_append _ _)⟩
          · exact Option.some.inj hread ▸ .inl ⟨rfl, h⟩
          · cases hread
      | unicode full digits code =>
          change inUnicode lexemes full digits code c = some t at hread
          unfold inUnicode at hread
          dsimp only at hread
          split_ifs at hread <;> obtain rfl := Option.some.inj hread
          · exact .inl ⟨rfl, h⟩
          · exact .inl ⟨rfl, h.trans (List.prefix_append _ _)⟩
      | _ => cases h

/-- A string is read to its end with all that has been read of it. -/
theorem document_basic (h : InString content s.mode) (hdocument : (s.run pieces).bind Lexer.finish = some document) :
    ∃ lexeme, IsString content lexeme ∧ s.lexemes ++ [lexeme] <+: document := by
  refine reaches_document (M := InString content) (fun mode piece t hmode hread => reaches_inString hmode hread)
    (fun mode document hmode hfinish => ?_) (.inl ⟨rfl, h⟩) hdocument
  cases mode with
  | basic full | escape full | unicode full digits code => cases hfinish
  | _ => cases hmode

/-- Two quotes are a string without content, or begin one of several lines. -/
def AfterQuotes : Mode → Prop
  | .doubled | .multi _ | .multiEscape _ | .multiQuotes _ _ => True
  | _ => False

def IsDoubled (lexeme : Lexeme) : Prop := lexeme = .basic [] ∨ ∃ raw, lexeme = .multiBasic raw

theorem reaches_inMulti (hread : inMulti lexemes raw c = some t) : Reaches lexemes IsDoubled AfterQuotes t := by
  unfold inMulti at hread
  split_ifs at hread <;> exact Option.some.inj hread ▸ .inl ⟨rfl, trivial⟩

theorem reaches_afterQuotes {mode : Mode} (h : AfterQuotes mode) (hread : (⟨lexemes, mode⟩ : Lexer).read piece = some t) :
    Reaches lexemes IsDoubled AfterQuotes t := by
  cases piece with
  | placeholder name =>
      cases mode with
      | doubled | multi raw | multiEscape raw | multiQuotes raw quotes => cases hread
      | _ => cases h
  | char c =>
      cases mode with
      | doubled =>
          simp only [Lexer.read, Lexer.step] at hread
          split_ifs at hread
          · exact Option.some.inj hread ▸ .inl ⟨rfl, trivial⟩
          · exact .inr ⟨_, .inl rfl, extends_afterString hread⟩
      | multi raw => exact reaches_inMulti hread
      | multiEscape raw => exact Option.some.inj hread ▸ .inl ⟨rfl, trivial⟩
      | multiQuotes raw quotes =>
          simp only [Lexer.read, Lexer.step] at hread
          split_ifs at hread
          · exact Option.some.inj hread ▸ .inl ⟨rfl, trivial⟩
          · exact reaches_inMulti hread
          · exact .inr ⟨_, .inr ⟨_, rfl⟩, extends_afterString hread⟩
      | _ => cases h

theorem document_doubled (h : AfterQuotes s.mode) (hdocument : (s.run pieces).bind Lexer.finish = some document) :
    ∃ lexeme, IsDoubled lexeme ∧ s.lexemes ++ [lexeme] <+: document := by
  refine reaches_document (M := AfterQuotes) (fun mode piece t hmode hread => reaches_afterQuotes hmode hread)
    (fun mode document hmode hfinish => ?_) (.inl ⟨rfl, h⟩) hdocument
  cases mode with
  | doubled => exact ⟨_, .inl rfl, Option.some.inj hfinish ▸ List.prefix_refl _⟩
  | multi raw | multiEscape raw => cases hfinish
  | multiQuotes raw quotes =>
      simp only [Lexer.finish] at hfinish
      split at hfinish
      · cases hfinish
      · obtain rfl := Option.some.inj hfinish
        exact ⟨_, .inr ⟨_, rfl⟩, List.prefix_refl _⟩
  | _ => cases hmode

/-- Documents that begin alike have the same next lexeme. -/
theorem eq_of_extends {a b : Lexeme} (ha : lexemes ++ [a] <+: document) (hb : lexemes ++ [b] <+: document) : a = b := by
  obtain ⟨rest, hrest⟩ := ha
  obtain ⟨rest', hrest'⟩ := hb
  rw [← hrest', List.append_assoc, List.append_assoc] at hrest
  exact (List.cons.inj (List.append_cancel_left hrest)).1

end Extends

end Rustgo.Toml
