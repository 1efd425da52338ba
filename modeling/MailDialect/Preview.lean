import MailDialect.Dialect
import MailDialect.Preview.Pattern
import MailDialect.Token
import MailDialect.Unicode.WhiteSpace

/-!
# Previews

A preview lists the names a template uses, each with a value to show for it: variables with their
default, collections of loops with no items, subjects of conditions with what they are compared to.
The names come from a search for patterns in the source and not from its template, so a source with
errors has a preview too.
-/

namespace MailDialect

open Unicode

/-- A value to show for a name. -/
inductive Preview.Value
  | text (value : Text)
  | noItems
deriving DecidableEq, Repr

/-- Names and values, in the order the names were first seen. -/
abbrev Preview := List (Text × Preview.Value)

namespace Preview

/-! ## Where names stand -/

/-- The pieces of a directive that a preview takes up. -/
inductive Piece
  | name
  | value
deriving DecidableEq, Repr

def blanks : Pattern Piece :=
  .many isWhiteSpace

def isNameChar (c : Char) : Bool :=
  c.isAlphanum || c == '_'

def isDottedChar (c : Char) : Bool :=
  isNameChar c || c == '-' || c == '.'

def optionalMarker : Pattern Piece :=
  .optional (.literal (Dialect.marker ++ [':']))

/-- A string in double quotes after a colon. -/
def quotedDefault : Pattern Piece :=
  .sequence [.one (· == ':'), blanks, .one (· == '"'), .capture .value (.many (· != '"')),
    .one (· == '"')]

/-- A variable with its default, if there is one, and anything up to the closer. -/
def variablePattern : Pattern Piece :=
  .sequence [.literal Delim.var.opener, blanks, optionalMarker,
    .capture .name (.oneOrMore isDottedChar), blanks, .optional quotedDefault,
    .many (· != '}'), .literal Delim.var.closer]

/-- A tag that starts with `word` and goes on with `parts`. -/
def tagPattern (word : Text) (parts : List (Pattern Piece)) : Pattern Piece :=
  .sequence (.literal Delim.tag.opener :: blanks :: .literal word :: .oneOrMore isWhiteSpace ::
    (parts ++ [.literal Delim.tag.closer]))

/-- A loop over a plain name. -/
def loopPattern : Pattern Piece :=
  tagPattern ['f', 'o', 'r'] [.oneOrMore isNameChar, .oneOrMore isWhiteSpace, .literal ['i', 'n'],
    .oneOrMore isWhiteSpace, optionalMarker, .capture .name (.oneOrMore isNameChar), blanks]

def operatorPattern : Pattern Piece :=
  .either (.literal Comparison.eq.spelling) <|
  .either (.literal Comparison.ne.spelling) <|
  .either (.literal Comparison.le.spelling) <|
  .either (.literal Comparison.ge.spelling) <|
  .either (.literal Comparison.lt.spelling) (.literal Comparison.gt.spelling)

def isQuote (c : Char) : Bool :=
  c == '"' || c == '\''

def isComparedChar (c : Char) : Bool :=
  !(isQuote c || isWhiteSpace c || c == '%' || c == '}')

/-- An operator and what stands after it, in quotes or not. -/
def comparedPattern : Pattern Piece :=
  .sequence [operatorPattern, blanks, .optional (.one isQuote),
    .capture .value (.many isComparedChar), .optional (.one isQuote)]

/-- A condition on a plain name alone. -/
def conditionPattern : Pattern Piece :=
  tagPattern ['i', 'f'] [optionalMarker, .capture .name (.oneOrMore isNameChar), blanks,
    .optional comparedPattern, blanks]

/-! ## Collecting names -/

/-- A piece of a match; empty if the match has no such piece. -/
def piece (p : Piece) (captures : List (Piece × Text)) : Text :=
  (captures.lookup p).getD []

/-- Adds a name unless it is there already. -/
def insert (preview : Preview) (name : Text) (value : Value) : Preview :=
  if preview.any fun entry => entry.1 == name then preview else preview ++ [(name, value)]

/-- Adds a name with each match of a pattern. -/
def collect (pattern : Pattern Piece) (value : List (Piece × Text) → Value) (source : Text)
    (preview : Preview) : Preview :=
  (pattern.search source).foldl (fun seen captures => seen.insert (piece .name captures)
    (value captures)) preview

/-- The preview of a source: variables first, then collections, then subjects of conditions. -/
def ofSource (source : Text) : Preview :=
  collect conditionPattern (fun captures => .text (piece .value captures)) source <|
  collect loopPattern (fun _ => .noItems) source <|
  collect variablePattern (fun captures => .text (piece .value captures)) source []

end Preview

end MailDialect
