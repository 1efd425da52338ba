import MailDialect.Text
import MailDialect.Unicode.Alphabetic
import MailDialect.Unicode.Numeric

/-!
# Words

A word starts with a letter or an underscore and goes on with letters, numerals and underscores, of
any script. Names and keywords of a directive are words.
-/

namespace MailDialect

open Unicode

/-- Whether a word can start with `c`. -/
def isWordStart (c : Char) : Bool :=
  isAlphabetic c || c == '_'

/-- Whether a word can go on with `c`. -/
def isWordChar (c : Char) : Bool :=
  isAlphabetic c || isNumeric c || c == '_'

/-- Whether the whole of a text is one word. -/
def Text.isWord : Text → Bool
  | [] => false
  | c :: rest => isWordStart c && rest.all isWordChar

/-- A word may go on with anything it may start with. -/
theorem isWordChar_of_isWordStart {c : Char} (h : isWordStart c) : isWordChar c := by
  simp only [isWordStart, Bool.or_eq_true] at h
  rcases h with h | h <;> simp [isWordChar, h]

end MailDialect
