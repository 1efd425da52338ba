import MailDialect.Text.Quoted
import MailDialect.Text.Word
import MailDialect.Token.Problem

/-!
# Lexemes

A lexeme is the longest comparison, punctuation mark, string, number or word at the front of the
text of a directive. Main statement: reading a lexeme divides the text into the lexeme, which is not
empty, and the rest (`Lexeme.text_append_rest`, `Lexeme.text_ne_nil`).
-/

namespace MailDialect

/-- A lexeme and the text after it. -/
structure Lexeme where
  kind : Token.Kind
  text : Text
  rest : Text
deriving DecidableEq, Repr

namespace Lexeme

/-- A problem met `distance` bytes after the start of a lexeme. -/
structure Fault where
  distance : Nat
  problem : Token.Problem
deriving DecidableEq, Repr

/-- The comparison at the front of a text, and the text after it. -/
def comparison? : Text → Option (Comparison × Text)
  | '=' :: '=' :: rest => some (.eq, rest)
  | '!' :: '=' :: rest => some (.ne, rest)
  | '<' :: '=' :: rest => some (.le, rest)
  | '>' :: '=' :: rest => some (.ge, rest)
  | '<' :: rest => some (.lt, rest)
  | '>' :: rest => some (.gt, rest)
  | _ => none

/-- A number ends where no digit, letter or further point follows; after a point the digits are a
path segment, which another point may follow. -/
def endNumber (segment : Bool) (digits rest : Text) : Except Fault Lexeme :=
  match rest with
  | [] => .ok ⟨.number, digits, rest⟩
  | c :: _ =>
    if isWordChar c || (c == '.' && !segment) then
      .error ⟨Text.byteSize digits, .strayInNumber c⟩
    else .ok ⟨.number, digits, rest⟩

/-- Reads digits and, unless they are a path `segment`, a fraction. -/
def number (segment : Bool) (text : Text) : Except Fault Lexeme :=
  let whole := text.takeWhile Char.isDigit
  match segment, text.dropWhile Char.isDigit with
  | false, '.' :: rest =>
    if (rest.takeWhile Char.isDigit).isEmpty then .error ⟨0, .missingFraction⟩
    else
      endNumber segment (whole ++ '.' :: rest.takeWhile Char.isDigit) (rest.dropWhile Char.isDigit)
  | _, rest => endNumber segment whole rest

/-- A word is a keyword or a name. -/
def wordKind (word : Text) : Token.Kind :=
  match Keyword.ofWord? word with
  | some k => .keyword k
  | none => .name

def word (text : Text) : Lexeme :=
  let letters := text.takeWhile isWordChar
  ⟨wordKind letters, letters, text.dropWhile isWordChar⟩

/-- Reads the lexeme at the front of a text; `afterDot` tells whether a point came before it. -/
def read (afterDot : Bool) (text : Text) : Except Fault Lexeme :=
  match text with
  | [] => .error ⟨0, .endOfDirective⟩
  | c :: rest =>
    match comparison? text with
    | some (op, rest) => .ok ⟨.comparison op, op.spelling, rest⟩
    | none =>
      match Punct.ofChar? c with
      | some p => .ok ⟨.punct p, [c], rest⟩
      | none =>
        if c == '\'' || c == '"' then
          match Quoted.read c rest with
          | some found => .ok ⟨.string found.value, c :: found.written, found.rest⟩
          | none => .error ⟨0, .unclosedString⟩
        else if c.isDigit then number afterDot text
        else if isWordStart c then .ok (word text)
        else .error ⟨0, .strayCharacter c⟩

/-! ## Nothing is lost -/

theorem spelling_append_of_comparison? {text rest : Text} {op : Comparison}
    (h : comparison? text = some (op, rest)) : op.spelling ++ rest = text := by
  revert h
  unfold comparison?
  split <;> simp +contextual [Comparison.spelling, eq_comm]

theorem endNumber_eq_ok {segment : Bool} {digits rest : Text} {l : Lexeme}
    (h : endNumber segment digits rest = .ok l) : l = ⟨.number, digits, rest⟩ := by
  unfold endNumber at h
  split at h
  · exact (Except.ok.inj h).symm
  · split at h
    · cases h
    · exact (Except.ok.inj h).symm

theorem text_append_rest_of_number {segment : Bool} {text : Text} {l : Lexeme}
    (h : number segment text = .ok l) : l.text ++ l.rest = text := by
  have hdigits := List.takeWhile_append_dropWhile (p := Char.isDigit) (l := text)
  unfold number at h
  simp only at h
  split at h
  · rename_i rest hrest
    have hfraction := List.takeWhile_append_dropWhile (p := Char.isDigit) (l := rest)
    split at h
    · cases h
    · rw [endNumber_eq_ok h]
      simp only [List.append_assoc, List.cons_append, hfraction]
      rw [← hrest, hdigits]
  · rw [endNumber_eq_ok h]
    exact hdigits

/-- The lexeme and the rest make up the text. -/
theorem text_append_rest {afterDot : Bool} {text : Text} {l : Lexeme}
    (h : read afterDot text = .ok l) : l.text ++ l.rest = text := by
  unfold read at h
  split at h
  · cases h
  · split at h
    · rename_i op rest hop
      cases h
      exact spelling_append_of_comparison? hop
    · split at h
      · cases h; rfl
      · split at h
        · split at h
          · rename_i found hfound
            cases h
            simp [Quoted.written_append_rest hfound]
          · cases h
        · split at h
          · exact text_append_rest_of_number h
          · split at h
            · cases h
              simp [word]
            · cases h

theorem text_ne_nil_of_number {segment : Bool} {c : Char} {rest : Text} {l : Lexeme}
    (hc : c.isDigit) (h : number segment (c :: rest) = .ok l) : l.text ≠ [] := by
  unfold number at h
  simp only at h
  split at h
  · split at h
    · cases h
    · rw [endNumber_eq_ok h]; simp
  · rw [endNumber_eq_ok h]; simp [hc]

/-- A lexeme is not empty. -/
theorem text_ne_nil {afterDot : Bool} {text : Text} {l : Lexeme}
    (h : read afterDot text = .ok l) : l.text ≠ [] := by
  unfold read at h
  split at h
  · cases h
  · split at h
    · rename_i op rest hop
      cases h
      cases op <;> simp [Comparison.spelling]
    · split at h
      · cases h; simp
      · split at h
        · split at h <;> cases h
          simp
        · split at h
          · rename_i hdigit
            exact text_ne_nil_of_number hdigit h
          · split at h
            · rename_i hstart
              cases h
              simp [word, isWordChar_of_isWordStart hstart]
            · cases h

end Lexeme

end MailDialect
