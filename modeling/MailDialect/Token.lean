import MailDialect.Text

/-!
# Tokens

A template is plain markup with directives in it. A directive stands between two delimiters and is
a variable, a tag or a comment; the lexemes of a variable or a tag are keywords, operators, names,
strings and numbers. A token remembers the piece of source it was read from.
-/

namespace MailDialect

/-- The kinds of directive. -/
inductive Delim
  | var
  | tag
  | comment
deriving DecidableEq, Repr

namespace Delim

/-- The character beside the brace in both delimiters of a directive. -/
def mark : Delim → Char × Char
  | var => ('{', '}')
  | tag => ('%', '%')
  | comment => ('#', '#')

def opener (d : Delim) : Text :=
  ['{', d.mark.1]

def closer (d : Delim) : Text :=
  [d.mark.2, '}']

/-- The directive that a brace followed by `c` opens. -/
def ofMark? (c : Char) : Option Delim :=
  if c == '{' then some var
  else if c == '%' then some tag
  else if c == '#' then some comment
  else none

end Delim

/-- The reserved words. `elif` is another spelling of `elseif`. -/
inductive Keyword
  | kwIf
  | kwElseif
  | kwElse
  | kwEndif
  | kwFor
  | kwIn
  | kwEndfor
  | kwRange
  | kwAnd
  | kwOr
  | kwNot
  | kwTrue
  | kwFalse
deriving DecidableEq, Repr

/-- Every reserved word with what it means. -/
def Keyword.spellings : List (Text × Keyword) :=
  [(['i', 'f'], .kwIf),
   (['e', 'l', 's', 'e', 'i', 'f'], .kwElseif),
   (['e', 'l', 'i', 'f'], .kwElseif),
   (['e', 'l', 's', 'e'], .kwElse),
   (['e', 'n', 'd', 'i', 'f'], .kwEndif),
   (['f', 'o', 'r'], .kwFor),
   (['i', 'n'], .kwIn),
   (['e', 'n', 'd', 'f', 'o', 'r'], .kwEndfor),
   (['r', 'a', 'n', 'g', 'e'], .kwRange),
   (['a', 'n', 'd'], .kwAnd),
   (['o', 'r'], .kwOr),
   (['n', 'o', 't'], .kwNot),
   (['t', 'r', 'u', 'e'], .kwTrue),
   (['f', 'a', 'l', 's', 'e'], .kwFalse)]

/-- The keyword that a word is, if it is reserved. -/
def Keyword.ofWord? (word : Text) : Option Keyword :=
  Keyword.spellings.lookup word

inductive Comparison
  | eq
  | ne
  | lt
  | gt
  | le
  | ge
deriving DecidableEq, Repr

def Comparison.spelling : Comparison → Text
  | eq => ['=', '=']
  | ne => ['!', '=']
  | lt => ['<']
  | gt => ['>']
  | le => ['<', '=']
  | ge => ['>', '=']

/-- The one-character operators and brackets. -/
inductive Punct
  | assign
  | dot
  | colon
  | pipe
  | comma
  | lparen
  | rparen
  | lbracket
  | rbracket
  | plus
  | minus
  | star
  | slash
  | tilde
deriving DecidableEq, Repr

def Punct.ofChar? : Char → Option Punct
  | '=' => some assign
  | '.' => some dot
  | ':' => some colon
  | '|' => some pipe
  | ',' => some comma
  | '(' => some lparen
  | ')' => some rparen
  | '[' => some lbracket
  | ']' => some rbracket
  | '+' => some plus
  | '-' => some minus
  | '*' => some star
  | '/' => some slash
  | '~' => some tilde
  | _ => none

namespace Token

/-- What a token is; a string carries the value it stands for. -/
inductive Kind
  | text
  | opener (d : Delim)
  | closer (d : Delim)
  | keyword (k : Keyword)
  | comparison (op : Comparison)
  | punct (p : Punct)
  | name
  | string (value : Text)
  | number
deriving DecidableEq, Repr

end Token

/-- A piece of the source that was read as one unit. -/
structure Token where
  /-- What the piece is. -/
  kind : Token.Kind
  /-- The piece itself. -/
  text : Text
  /-- The byte where it starts. -/
  offset : Nat
deriving DecidableEq, Repr

/-- The byte after a token. -/
def Token.stop (t : Token) : Nat :=
  t.offset + Text.byteSize t.text

end MailDialect
