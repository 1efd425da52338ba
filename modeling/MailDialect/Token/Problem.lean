import MailDialect.Text.CharLiteral
import MailDialect.Token

/-!
# What can be wrong with a token

A template has no tokens when a directive or a string is never closed, when a number is malformed
or when a character has no place inside a directive. All of these are told by their byte place.
-/

namespace MailDialect

/-- Why no token can be read. -/
inductive Token.Problem
  | unclosedDirective (d : Delim)
  | unclosedString
  | missingFraction
  | strayInNumber (c : Char)
  | strayCharacter (c : Char)
  | endOfDirective
deriving DecidableEq, Repr

def Token.Problem.message : Token.Problem → String
  | unclosedDirective d =>
    "unterminated `" ++ String.ofList d.opener ++ "`: missing `" ++ String.ofList d.closer ++ "`"
  | unclosedString => "unterminated string literal"
  | missingFraction => "malformed number literal: missing digits after `.`"
  | strayInNumber c => "invalid character " ++ charLiteral c ++ " in number literal"
  | strayCharacter c => "illegal character " ++ charLiteral c ++ " inside directive"
  | endOfDirective => "unexpected end of directive"

/-- A problem and the byte where it lies. -/
structure ScanError where
  offset : Nat
  problem : Token.Problem
deriving DecidableEq, Repr

def ScanError.message (e : ScanError) : String :=
  "lex error at byte " ++ toString e.offset ++ ": " ++ e.problem.message

end MailDialect
