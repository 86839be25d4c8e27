import Rustgo.TextParts
import Rustgo.TomlStrings

namespace Rustgo.Config

open TextParts Toml

def isNameStart (c : Char) : Bool := c.isUpper || c = '_'

def isNameChar (c : Char) : Bool := c.isUpper || c.isDigit || c = '_'

def isEnvironmentVariableName : List Char → Bool
  | [] => false
  | c :: rest => isNameStart c && rest.all isNameChar

/-- The value of a variable, with its backslashes doubled. -/
def escaped (value : List Char) : List Char := value.flatMap fun c => if c = '\\' then ['\\', '\\'] else [c]

/-- The error of a placeholder without a name. -/
def invalidPlaceholder : List Char := "invalid placeholder".toList

theorem length_of_splitOnce {c : Char} {text before after : List Char} (h : splitOnce c text = some (before, after)) :
    after.length < text.length := by
  obtain ⟨rfl, -⟩ := splitOnce_eq_some.mp h
  simp only [List.length_append, List.length_cons]
  omega

def interpolate (environment : List Char → Option (List Char)) : List Char → Except (List Char) (List Char)
  | '$' :: '{' :: afterOpen =>
      match h : splitOnce '}' afterOpen with
      | none => .error invalidPlaceholder
      | some (name, remaining) =>
          if isEnvironmentVariableName name = false then .error invalidPlaceholder
          else
            match environment name with
            | none => .error name
            | some value => (interpolate environment remaining).map (escaped value ++ ·)
  | c :: remaining => (interpolate environment remaining).map (c :: ·)
  | [] => .ok []
termination_by text => text.length
decreasing_by
  · have := length_of_splitOnce h
    simp only [List.length_cons]
    omega
  · simp

/-- The placeholders of a text, with the characters around them. -/
def scan : List Char → List Piece
  | '$' :: '{' :: afterOpen =>
      match h : splitOnce '}' afterOpen with
      | none => ('$' :: '{' :: afterOpen).map .char
      | some (name, remaining) => .placeholder name :: scan remaining
  | c :: remaining => .char c :: scan remaining
  | [] => []
termination_by text => text.length
decreasing_by
  · have := length_of_splitOnce h
    simp only [List.length_cons]
    omega
  · simp

section Interpolated

variable {environment : List Char → Option (List Char)} {source expanded : List Char}

def valueOf (environment : List Char → Option (List Char)) (name : List Char) : List Char := (environment name).getD []

/-- What is written for a piece of the text. -/
def written (environment : List Char → Option (List Char)) : Piece → List Char
  | .char c => [c]
  | .placeholder name => escaped (valueOf environment name)

theorem scan_placeholder {afterOpen name remaining : List Char} (h : splitOnce '}' afterOpen = some (name, remaining)) :
    scan ('$' :: '{' :: afterOpen) = .placeholder name :: scan remaining := by
  rw [scan]
  split
  · next hnone =>
    rw [h] at hnone
    cases hnone
  · next name' remaining' hsome =>
    obtain ⟨rfl, rfl⟩ := Prod.mk.inj (Option.some.inj (h.symm.trans hsome))
    rfl

theorem map_eq_ok {α : Type} {f : α → α} {x : Except (List Char) α} {y : α} (h : x.map f = .ok y) :
    ∃ z, x = .ok z ∧ f z = y := by
  cases x with
  | error e => cases h
  | ok z => exact ⟨z, rfl, Except.ok.inj h⟩

/-- Every placeholder is replaced once, by the value of a variable that there is. -/
theorem interpolate_eq_ok (h : interpolate environment source = .ok expanded) :
    expanded = (scan source).flatMap (written environment) ∧
      ∀ name, Piece.placeholder name ∈ scan source → environment name = some (valueOf environment name) := by
  fun_induction interpolate environment source generalizing expanded with
  | case1 => cases h
  | case2 => cases h
  | case3 => cases h
  | case4 afterOpen name remaining hsplit hname value hvalue ih =>
      obtain ⟨rest, hrest, rfl⟩ := map_eq_ok h
      obtain ⟨rfl, hvalues⟩ := ih hrest
      have hvalueOf : valueOf environment name = value := by rw [valueOf, hvalue, Option.getD_some]
      rw [scan_placeholder hsplit]
      refine ⟨by rw [List.flatMap_cons, written, hvalueOf], fun other hother => ?_⟩
      rcases List.mem_cons.mp hother with heq | hother
      · obtain rfl := Piece.placeholder.inj heq
        rw [hvalueOf, hvalue]
      · exact hvalues other hother
  | case5 c remaining hno ih =>
      obtain ⟨rest, hrest, rfl⟩ := map_eq_ok h
      obtain ⟨rfl, hvalues⟩ := ih hrest
      have hscan : scan (c :: remaining) = .char c :: scan remaining := by
        rw [scan]
        exact hno
      rw [hscan]
      refine ⟨rfl, fun other hother => hvalues other ?_⟩
      rcases List.mem_cons.mp hother with heq | hother
      · cases heq
      · exact hother
  | case6 =>
      rw [scan]
      exact ⟨(Except.ok.inj h).symm, fun _ h => absurd h List.not_mem_nil⟩

end Interpolated

/-- A value that can stand in a basic string once its backslashes are doubled. -/
def staysInString (value : List Char) : Bool := value.all fun c => c ≠ '"' && isStringChar c

section Follows

variable {value : List Char → List Char} {lexemes document : List Lexeme} {content : List Piece} {s s' t : Lexer} {name good more : List Char}
  {c : Char} {pieces : List Piece}

theorem escaped_cons (c : Char) (rest : List Char) : escaped (c :: rest) = (if c = '\\' then ['\\', '\\'] else [c]) ++ escaped rest := rfl

theorem run_escaped (h : staysInString good = true) : (⟨lexemes, .basic content⟩ : Lexer).run ((escaped good).map .char) =
    some ⟨lexemes, .basic (content ++ good.map .char)⟩ := by
  induction good generalizing content with
  | nil =>
      rw [List.map_nil, List.append_nil]
      rfl
  | cons c good ih =>
      obtain ⟨hc, hgood⟩ := Bool.and_eq_true_iff.mp h
      obtain ⟨hquote, hchar⟩ := Bool.and_eq_true_iff.mp hc
      have hstep : (⟨lexemes, .basic content⟩ : Lexer).run (((if c = '\\' then ['\\', '\\'] else [c]) : List Char).map .char) =
          some ⟨lexemes, .basic (content ++ [.char c])⟩ := by
        by_cases hslash : c = '\\'
        · subst hslash
          rfl
        · rw [if_neg hslash]
          simp [Lexer.run, Lexer.read, Lexer.step, inBasic, hslash, hchar, of_decide_eq_true hquote]
      rw [escaped_cons, List.map_append, Lexer.run_append, hstep, Option.bind_some, ih hgood, List.append_assoc]
      rfl

theorem step_opened (h : c ≠ '"') : (⟨lexemes, .opened⟩ : Lexer).step c = (⟨lexemes, .basic []⟩ : Lexer).step c := if_neg h

/-- After its quote a string is read on as one that has no content yet. -/
theorem run_escaped_opened (h : staysInString good = true) (hne : good ≠ []) : (⟨lexemes, .opened⟩ : Lexer).run ((escaped good).map .char) =
    some ⟨lexemes, .basic (good.map .char)⟩ := by
  cases good with
  | nil => exact absurd rfl hne
  | cons c good =>
      have hbasic : (⟨lexemes, .basic []⟩ : Lexer).run ((escaped (c :: good)).map .char) =
          some ⟨lexemes, .basic ([] ++ (c :: good).map .char)⟩ := run_escaped h
      rw [List.nil_append, escaped_cons] at hbasic
      rw [escaped_cons, ← hbasic]
      have hquote : c ≠ '"' := of_decide_eq_true (Bool.and_eq_true_iff.mp (Bool.and_eq_true_iff.mp h).1).1
      by_cases hslash : c = '\\'
      · subst hslash
        rfl
      · rw [if_neg hslash, List.singleton_append, List.map_cons, Lexer.run, Lexer.run, Lexer.read, Lexer.read, step_opened hquote]

/-- The expanded text is read in step with the text, but a string that has got nothing yet may still turn out to be
one of two quotes. -/
inductive Follows (value : List Char → List Char) : Lexer → Lexer → Prop
  | same (s : Lexer) : Follows value s (s.expand value)
  | opened (lexemes : List Lexeme) (content : List Piece) (h : expandContent value content = []) :
      Follows value ⟨lexemes, .basic content⟩ ⟨lexemes.map (Lexeme.expand value), .opened⟩
  | doubled (lexemes : List Lexeme) (content : List Piece) (h : expandContent value content = []) :
      Follows value ⟨lexemes ++ [.basic content], .closed⟩ ⟨lexemes.map (Lexeme.expand value), .doubled⟩

theorem Follows.step (h : Follows value s t) (hstep : s.step c = some s') : ∃ t', t.step c = some t' ∧ Follows value s' t' := by
  cases h with
  | same =>
      refine ⟨_, ?_, .same s'⟩
      rw [← map_step, hstep]
      rfl
  | opened lexemes content h =>
      by_cases hquote : c = '"'
      · subst hquote
        obtain rfl := Option.some.inj hstep
        exact ⟨_, rfl, .doubled lexemes content h⟩
      · refine ⟨_, ?_, .same s'⟩
        rw [step_opened hquote]
        change inBasic (lexemes.map (Lexeme.expand value)) [] c = _
        rw [← h, ← map_inBasic]
        exact congrArg (Option.map (Lexer.expand value)) hstep
  | doubled lexemes content h =>
      have hstep : afterString (lexemes ++ [.basic content]) c = some s' := hstep
      have hquote : c ≠ '"' := by
        rintro rfl
        rw [afterString, if_pos (.inl rfl)] at hstep
        cases hstep
      refine ⟨_, ?_, .same s'⟩
      have hlexemes : lexemes.map (Lexeme.expand value) ++ [.basic []] = (lexemes ++ [Lexeme.basic content]).map (Lexeme.expand value) := by
        rw [List.map_append, ← h]
        rfl
      simp only [Lexer.step]
      rw [if_neg hquote, hlexemes, ← map_afterString, hstep]
      rfl

theorem Follows.finish (h : Follows value s t) (hfinish : s.finish = some document) :
    t.finish = some (document.map (Lexeme.expand value)) := by
  cases h with
  | same => rw [← map_finish, hfinish]; rfl
  | opened => cases hfinish
  | doubled lexemes content h =>
      obtain rfl := Option.some.inj hfinish
      rw [List.map_append, Lexer.finish, ← h]
      rfl

/-- The lexer stands in a basic string of which some content has been read. -/
def InContent (lexemes : List Lexeme) (content : List Piece) (t : Lexer) : Prop :=
  t = ⟨lexemes, .basic content⟩ ∨ content = [] ∧ t = ⟨lexemes, .opened⟩

theorem InContent.run (h : InContent lexemes content t) (hgood : staysInString good = true) :
    ∃ t', t.run ((escaped good).map .char) = some t' ∧ InContent lexemes (content ++ good.map .char) t' := by
  rcases h with rfl | ⟨rfl, rfl⟩
  · exact ⟨_, run_escaped hgood, .inl rfl⟩
  · by_cases hempty : good = []
    · subst hempty
      exact ⟨_, rfl, .inr ⟨rfl, rfl⟩⟩
    · exact ⟨_, run_escaped_opened hgood hempty, .inl rfl⟩

theorem Follows.inContent (h : Follows value s t) (hread : s.read (.placeholder name) = some s') :
    ∃ content, s' = ⟨s.lexemes, .basic (content ++ [.placeholder name])⟩ ∧
      InContent (s.lexemes.map (Lexeme.expand value)) (expandContent value content) t := by
  cases h with
  | same =>
      obtain ⟨lexemes, mode⟩ := s
      cases mode with
      | opened => exact ⟨[], (Option.some.inj hread).symm, .inr ⟨rfl, rfl⟩⟩
      | basic content => exact ⟨content, (Option.some.inj hread).symm, .inl rfl⟩
      | _ => cases hread
  | opened lexemes content h => exact ⟨content, (Option.some.inj hread).symm, .inr ⟨h, rfl⟩⟩
  | doubled => cases hread

theorem expandContent_placeholder : expandContent value (content ++ [.placeholder name]) =
    expandContent value content ++ (value name).map .char := by
  rw [expandContent_append]
  simp [expandContent, Piece.expand]

theorem Follows.placeholder (h : Follows value s t) (hread : s.read (.placeholder name) = some s')
    (hvalue : staysInString (value name) = true) : ∃ t', t.run ((escaped (value name)).map .char) = some t' ∧ Follows value s' t' := by
  obtain ⟨content, rfl, hcontent⟩ := h.inContent hread
  obtain ⟨t', hrun, rfl | ⟨hempty, rfl⟩⟩ := hcontent.run hvalue
  · rw [← expandContent_placeholder] at hrun
    exact ⟨_, hrun, .same ⟨s.lexemes, .basic (content ++ [.placeholder name])⟩⟩
  · exact ⟨_, hrun, .opened s.lexemes _ (expandContent_placeholder.trans hempty)⟩

/-- The first character of a value that cannot stand in a string. -/
theorem exists_bad {text : List Char} (h : staysInString text = false) :
    ∃ good bad more, text = good ++ bad :: more ∧ staysInString good = true ∧ (bad = '"' ∨ isStringChar bad = false) := by
  induction text with
  | nil => cases h
  | cons c text ih =>
      by_cases hbad : c = '"' ∨ isStringChar c = false
      · exact ⟨[], c, text, rfl, rfl, hbad⟩
      · have hc : (decide (c ≠ '"') && isStringChar c) = true := by simpa [not_or] using hbad
        obtain ⟨good, bad, more, rfl, hgood, hbad⟩ := ih (by rwa [staysInString, List.all_cons, hc, Bool.true_and] at h)
        exact ⟨c :: good, bad, more, rfl, by rw [staysInString, List.all_cons, hc]; exact hgood, hbad⟩

/-- A quote in a value ends the string before the value does. -/
theorem InContent.quote (h : InContent lexemes content t) (hdocument : (t.run (.char '"' :: pieces)).bind Lexer.finish = some document) :
    ∃ lexeme, (lexeme = .basic content ∨ IsDoubled lexeme) ∧ lexemes ++ [lexeme] <+: document := by
  rcases h with rfl | ⟨rfl, rfl⟩
  · exact ⟨_, .inl rfl, extends_document (s := ⟨lexemes ++ [.basic content], .closed⟩) hdocument⟩
  · obtain ⟨lexeme, hlexeme, hextends⟩ := document_doubled (s := ⟨lexemes, .doubled⟩) trivial hdocument
    exact ⟨lexeme, .inr hlexeme, hextends⟩

theorem InContent.step_bad (h : InContent lexemes content t) (hbad : isStringChar c = false) (hquote : c ≠ '"') : t.step c = none := by
  have hslash : c ≠ '\\' := by
    rintro rfl
    cases hbad
  have hnone : inBasic lexemes content c = none := by rw [inBasic, if_neg hquote, if_neg hslash, if_neg (by rw [hbad]; exact Bool.false_ne_true)]
  rcases h with rfl | ⟨rfl, rfl⟩
  · exact hnone
  · rw [step_opened hquote]
    exact hnone

theorem escaped_bad (hbad : c = '"' ∨ isStringChar c = false) : escaped (good ++ c :: more) = escaped good ++ c :: escaped more := by
  have hslash : c ≠ '\\' := by
    rintro rfl
    rcases hbad with hbad | hbad <;> cases hbad
  rw [escaped, List.flatMap_append, List.flatMap_cons, if_neg hslash]
  rfl

/-- Of a value that cannot stand in a string no more than a proper part is read into the string. -/
theorem Follows.diverges {after : List Piece} (h : Follows value s t) (hread : s.read (.placeholder name) = some s')
    (hvalue : staysInString (value name) = false) (hdocument : (s'.run pieces).bind Lexer.finish = some document) :
    (t.run ((escaped (value name)).map .char ++ after)).bind Lexer.finish ≠ some (document.map (Lexeme.expand value)) := by
  intro hexpanded
  obtain ⟨content, rfl, hcontent⟩ := h.inContent hread
  obtain ⟨good, bad, more, hsplit, hgood, hbad⟩ := exists_bad hvalue
  obtain ⟨t', hrun, hcontent⟩ := hcontent.run hgood
  rw [hsplit, escaped_bad hbad, List.map_append, List.append_assoc, Lexer.run_append, hrun, Option.bind_some, List.map_cons,
    List.cons_append] at hexpanded
  by_cases hquote : bad = '"'
  · subst hquote
    -- the string of the original holds the whole value, the string of the expanded text only what stands before the quote
    have hstring : InString (content ++ [.placeholder name]) (.basic (content ++ [.placeholder name])) := List.prefix_refl _
    obtain ⟨lexeme, ⟨full, hfull, rfl⟩, hextends⟩ := document_basic
      (s := ⟨s.lexemes, .basic (content ++ [.placeholder name])⟩) hstring hdocument
    obtain ⟨lexeme', hlexeme', hextends'⟩ := hcontent.quote hexpanded
    have hextends := hextends.map (Lexeme.expand value)
    rw [List.map_append] at hextends
    obtain rfl := eq_of_extends hextends' hextends
    obtain ⟨rest, rfl⟩ := hfull
    have hlength : (expandContent value (content ++ [.placeholder name] ++ rest)).length =
        (expandContent value content).length + (good.length + (more.length + 1)) + (expandContent value rest).length := by
      rw [expandContent_append, expandContent_placeholder, hsplit]
      simp only [List.length_append, List.length_map, List.length_cons]
    rcases hlexeme' with heq | heq | ⟨raw, heq⟩
    · have := congrArg List.length (Lexeme.basic.inj heq)
      rw [hlength, List.length_append, List.length_map] at this
      omega
    · have := congrArg List.length (Lexeme.basic.inj heq)
      rw [hlength, List.length_nil] at this
      omega
    · cases heq
  · rw [Lexer.run, Lexer.read, hcontent.step_bad (hbad.resolve_left hquote) hquote] at hexpanded
    cases hexpanded

end Follows

section Documents

variable {environment : List Char → Option (List Char)} {s t : Lexer} {pieces : List Piece} {document : List Lexeme}

/-- By induction on the pieces: the expanded text is read as the text with its values put in, as long as the values can
stand in strings. -/
theorem Follows.run_iff (h : Follows (valueOf environment) s t) (hdocument : (s.run pieces).bind Lexer.finish = some document) :
    (t.run ((pieces.flatMap (written environment)).map .char)).bind Lexer.finish =
        some (document.map (Lexeme.expand (valueOf environment))) ↔
      ∀ name, Piece.placeholder name ∈ pieces → staysInString (valueOf environment name) = true := by
  induction pieces generalizing s t with
  | nil => exact ⟨fun _ _ hname => absurd hname List.not_mem_nil, fun _ => h.finish hdocument⟩
  | cons piece pieces ih =>
      rw [Lexer.run, Option.bind_assoc] at hdocument
      obtain ⟨s', hread, hrest⟩ := Option.bind_eq_some_iff.mp hdocument
      rw [List.flatMap_cons, List.map_append]
      cases piece with
      | char c =>
          obtain ⟨t', hstep, h'⟩ := h.step hread
          have hrun : t.run ((written environment (.char c)).map .char) = some t' := by
            change (t.step c).bind _ = _
            rw [hstep]
            rfl
          rw [Lexer.run_append, hrun, Option.bind_some, ih h' hrest]
          simp
      | placeholder name =>
          by_cases hvalue : staysInString (valueOf environment name) = true
          · obtain ⟨t', hrun, h'⟩ := h.placeholder hread hvalue
            rw [Lexer.run_append, written, hrun, Option.bind_some, ih h' hrest]
            simp [hvalue]
          · refine ⟨fun hexpanded => absurd hexpanded (h.diverges hread (Bool.eq_false_iff.mpr hvalue) hrest), fun hall => ?_⟩
            exact absurd (hall name List.mem_cons_self) hvalue

variable {source expanded : List Char}

/-- The expanded text is the document of the text with every placeholder replaced by its value, exactly when the values
have no quotes and no control characters that a string may not have. -/
theorem interpolated_document (hok : interpolate environment source = .ok expanded) (hdocument : lex (scan source) = some document) :
    lex (expanded.map .char) = some (document.map (Lexeme.expand (valueOf environment))) ↔
      ∀ name value, Piece.placeholder name ∈ scan source → environment name = some value → staysInString value = true := by
  obtain ⟨rfl, hvalues⟩ := interpolate_eq_ok hok
  have hstart : Follows (valueOf environment) ⟨[], .plain⟩ ⟨[], .plain⟩ := .same ⟨[], .plain⟩
  rw [lex, hstart.run_iff hdocument]
  constructor
  · intro hall name value hname hvalue
    obtain rfl : valueOf environment name = value := Option.some.inj ((hvalues name hname).symm.trans hvalue)
    exact hall name hname
  · exact fun hall name hname => hall name _ hname (hvalues name hname)

/-- One variable `P`. -/
def single (value : String) (name : List Char) : Option (List Char) := if name = "P".toList then some value.toList else none

def quoted : List Char := "p = \"${P}\"".toList

/-- The lexemes of a key and what its string is. -/
def assigned (content : List Piece) : List Lexeme := "p = ".toList.map .plain ++ [.basic content]

theorem single_stays {text : String} (h : staysInString text.toList = true) :
    ∀ name value, Piece.placeholder name ∈ scan quoted → single text name = some value → staysInString value = true := by
  intro name value _ hvalue
  rw [single] at hvalue
  split at hvalue
  · exact Option.some.inj hvalue ▸ h
  · cases hvalue

theorem interpolated_document_path : lex ("p = \"C:\\\\a\"".toList.map .char) = some (assigned ("C:\\a".toList.map .char)) :=
  (@interpolated_document (single "C:\\a") (assigned [.placeholder ['P']]) quoted "p = \"C:\\\\a\"".toList
    (by decide +kernel) (by decide +kernel)).mpr (single_stays (by decide +kernel))

theorem value_adds_key :
    let environment := single "x\"\nadmin = \"y"
    let expanded := "p = \"x\"\nadmin = \"y\"".toList
    interpolate environment quoted = .ok expanded ∧ lex (scan quoted) = some (assigned [.placeholder ['P']]) ∧
      lex (expanded.map .char) = some (assigned ("x".toList.map .char) ++ "\nadmin = ".toList.map .plain ++ [.basic ("y".toList.map .char)]) ∧
      lex (expanded.map .char) ≠ some ((assigned [.placeholder ['P']]).map (Lexeme.expand (valueOf environment))) := by
  decide +kernel

end Documents

end Rustgo.Config
