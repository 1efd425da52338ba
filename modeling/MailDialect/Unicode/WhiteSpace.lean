import MailDialect.Unicode.Ranges

/-!
# White space

The White_Space property: the blanks that may stand between the lexemes of a directive.
-/

namespace MailDialect.Unicode

/-- The white space beyond ASCII. -/
def whiteSpaceRanges : Ranges :=
  [(0x85, 0x85), (0xA0, 0xA0), (0x1680, 0x1680), (0x2000, 0x200A), (0x2028, 0x2029),
   (0x202F, 0x202F), (0x205F, 0x205F), (0x3000, 0x3000)]

def isWhiteSpace (c : Char) : Bool :=
  c == ' ' || (0x09 ≤ c.toNat && c.toNat ≤ 0x0D) || whiteSpaceRanges.has c

end MailDialect.Unicode
