import MailDialect.Unicode.CombiningMark
import MailDialect.Unicode.DefaultIgnorable
import MailDialect.Unicode.Printable

/-!
# Characters in messages

A message names a character in single quotes. Characters that would be invisible, or would be drawn
onto the quote before them, are given by their code point.
-/

namespace MailDialect

open Unicode

/-- Whether a character can stand alone between quotes and be seen. -/
def isShowable (c : Char) : Bool :=
  isPrintable c && !isCombiningMark c && !isDefaultIgnorable c

/-- The code point in lower-case hexadecimal, without leading zeros. -/
def codePointEscape (c : Char) : String :=
  "\\u\x7b" ++ String.ofList (Nat.toDigits 16 c.toNat) ++ "\x7d"

/-- The character between the quotes. -/
def charEscape (c : Char) : String :=
  if c == '\x00' then "\\0"
  else if c == '\t' then "\\t"
  else if c == '\r' then "\\r"
  else if c == '\n' then "\\n"
  else if c == '\\' then "\\\\"
  else if c == '\'' then "\\'"
  else if isShowable c then String.singleton c
  else codePointEscape c

/-- A character as a message shows it. -/
def charLiteral (c : Char) : String :=
  "'" ++ charEscape c ++ "'"

end MailDialect
