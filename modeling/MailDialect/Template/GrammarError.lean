import MailDialect.Token

/-!
# Grammar errors

A template that has tokens may still break the rules by which they are put together. The error says
where, what would have been allowed there, and what was found.
-/

namespace MailDialect

/-- What the rules allow at a place. -/
inductive Expectation
  | textOrDirective
  | tagName
  | knownTag
  | closer (d : Delim)
  | variableName
  | defaultValue
  | filterName
  | literal
  | property
  | operand
  | closeParen
  | loopVariable
  | kwIn
  | rangeParen
  | collection
  | rangeBound
  | rangeArguments
  | endif
  | endifAfterElse
  | clause
  | endfor
  | enclosingIf
  | enclosingFor
deriving DecidableEq, Repr

def Expectation.message : Expectation → String
  | textOrDirective => "text or a directive"
  | tagName => "a tag name"
  | knownTag => "`if`, `for` or a closing tag"
  | closer d => "`" ++ String.ofList d.closer ++ "`"
  | variableName => "a variable name"
  | defaultValue => "a quoted default value"
  | filterName => "a filter name"
  | literal => "a literal"
  | property => "a property name after `.`"
  | operand => "an operand"
  | closeParen => "`)`"
  | loopVariable => "a loop variable"
  | kwIn => "`in`"
  | rangeParen => "`(` after `range`"
  | collection => "a collection name or `range(...)`"
  | rangeBound => "a range bound"
  | rangeArguments => "1 to 3 range arguments"
  | endif => "`\x7b% endif %\x7d`"
  | endifAfterElse => "`\x7b% endif %\x7d` after `\x7b% else %\x7d`"
  | clause => "`\x7b% elseif %\x7d`, `\x7b% else %\x7d` or `\x7b% endif %\x7d`"
  | endfor => "`\x7b% endfor %\x7d`"
  | enclosingIf => "an enclosing `\x7b% if %\x7d` block"
  | enclosingFor => "an enclosing `\x7b% for %\x7d` block"

/-- What stands where the rules allow something else. -/
inductive Finding
  | endOfInput
  | text
  | string (written : Text)
  | lexeme (written : Text)
  | arguments (count : Nat)
deriving DecidableEq, Repr

def Finding.message : Finding → String
  | endOfInput => "end of input"
  | text => "text"
  | string written => "string literal " ++ String.ofList written
  | lexeme written => "`" ++ String.ofList written ++ "`"
  | arguments count => toString count ++ " arguments"

def Finding.ofToken (t : Token) : Finding :=
  match t.kind with
  | .text => text
  | .string _ => string t.text
  | _ => lexeme t.text

/-- A breach of the rules. -/
structure GrammarError where
  offset : Nat
  expected : Expectation
  found : Finding
deriving DecidableEq, Repr

def GrammarError.message (e : GrammarError) : String :=
  "parse error at byte " ++ toString e.offset ++ ": expected " ++ e.expected.message ++ ", found "
    ++ e.found.message

end MailDialect
