import MailDialect.Text

/-!
# Quoted strings

A string literal stands between two quotes of one kind. A backslash before `n`, `t`, a quote or a
backslash is an escape; before anything else it stands for itself, so `C:\dir` needs no doubling.
Writing a value prefers double quotes, and doubles a backslash only where reading would take it for
an escape.
-/

namespace MailDialect.Quoted

/-- What a backslash followed by `c` stands for. -/
def unescape (c : Char) : Text :=
  if c == 'n' then ['\n']
  else if c == 't' then ['\t']
  else if c == '\\' || c == '"' || c == '\'' then [c]
  else ['\\', c]

/-- A string literal found in a text, its opening quote apart. -/
structure Found where
  /-- The characters the literal stands for. -/
  value : Text
  /-- The literal as written, closing quote included. -/
  written : Text
  /-- The text after the closing quote. -/
  rest : Text
deriving DecidableEq, Repr

/-- Reads on after an opening `quote`; there is no literal when the text ends before its closing
quote. -/
def read (quote : Char) : Text → Option Found
  | [] => none
  | c :: rest =>
    if c == quote then some ⟨[], [c], rest⟩
    else if c == '\\' then
      match rest with
      | [] => none
      | escaped :: more =>
        (read quote more).map fun found =>
          ⟨unescape escaped ++ found.value, c :: escaped :: found.written, found.rest⟩
    else
      (read quote rest).map fun found => ⟨c :: found.value, c :: found.written, found.rest⟩

/-- Whether a backslash before `c` would be read as an escape, or would come to stand before one. -/
def isEscapeSensitive (c : Char) : Bool :=
  c == 'n' || c == 't' || c == '\\' || c == '"' || c == '\'' || c == '\n' || c == '\t'

/-- The characters of a value between two quotes of kind `quote`. -/
def writeBody (quote : Char) : Text → Text
  | [] => []
  | c :: rest =>
    let written :=
      if c == '\n' then ['\\', 'n']
      else if c == '\t' then ['\\', 't']
      else if c == '\\' then
        if rest.head?.all isEscapeSensitive then ['\\', '\\'] else ['\\']
      else if c == quote then ['\\', c]
      else [c]
    written ++ writeBody quote rest

/-- The quote that a value is written with: a single one exactly when that saves escaping. -/
def quoteFor (value : Text) : Char :=
  if value.contains '"' && !value.contains '\'' then '\'' else '"'

/-- A value as a string literal. -/
def write (value : Text) : Text :=
  let quote := quoteFor value
  quote :: writeBody quote value ++ [quote]

/-- Reading divides the text: nothing is lost. -/
theorem written_append_rest {quote : Char} {text : Text} {found : Found}
    (h : read quote text = some found) : found.written ++ found.rest = text := by
  fun_induction read quote text generalizing found with
  | case1 => simp at h
  | case2 c rest hc => cases h; rfl
  | case3 => simp at h
  | case4 c _ _ escaped more ih =>
    obtain ⟨inner, hinner, rfl⟩ := Option.map_eq_some_iff.1 h
    simp [ih hinner]
  | case5 c rest _ _ ih =>
    obtain ⟨inner, hinner, rfl⟩ := Option.map_eq_some_iff.1 h
    simp [ih hinner]

end MailDialect.Quoted
