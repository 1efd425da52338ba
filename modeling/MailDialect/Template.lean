import MailDialect.Token

/-!
# Templates

A template is a list of nodes: text, comments, variables, blocks that depend on a condition, loops,
and tags that only one dialect knows. Every directive keeps the piece of source it was read from, so
that it can be passed on as it was written.
-/

namespace MailDialect

/-! ## Paths and operands -/

/-- Where the base name of a path is bound. -/
inductive Scope
  /-- A parameter of the template. -/
  | param
  /-- A loop around the path, through its variable or its helper. -/
  | loopLocal
  /-- The namespace of parameters, written out. -/
  | namespaced
deriving DecidableEq, Repr

/-- A name and the properties taken from it. -/
structure Path where
  base : Text
  fields : List Text
  scope : Scope
deriving DecidableEq, Repr

/-- The names of a path, base first. -/
def Path.segments (p : Path) : List Text :=
  p.base :: p.fields

/-- The names of a path with points between them. -/
def Path.dotted (p : Path) : Text :=
  List.intercalate ['.'] p.segments

/-- A constant. A number stays as it was written. -/
inductive Literal
  | string (value : Text)
  | number (digits : Text)
  | bool (value : Bool)
deriving DecidableEq, Repr

/-- How the arguments of a filter are written: not at all, after a colon, or in parentheses. -/
inductive Filter.Style
  | bare
  | colon
  | call
deriving DecidableEq, Repr

structure Filter where
  name : Text
  style : Filter.Style
  args : List Literal
deriving DecidableEq, Repr

/-! ## Conditions -/

inductive Connective
  | and
  | or
deriving DecidableEq, Repr

/-- A condition, or an operand of one. -/
inductive Expr
  | path (p : Path)
  | literal (l : Literal)
  | compare (left : Expr) (op : Comparison) (right : Expr)
  | logical (left : Expr) (op : Connective) (right : Expr)
  | not (inner : Expr)
  | group (inner : Expr)
  | filtered (inner : Expr) (filters : List Filter)
deriving DecidableEq, Repr

/-- All filters of a condition, in the order they are written. -/
def Expr.filters : Expr → List Filter
  | path _ => []
  | literal _ => []
  | compare left _ right => left.filters ++ right.filters
  | logical left _ right => left.filters ++ right.filters
  | not inner => inner.filters
  | group inner => inner.filters
  | filtered inner filters => inner.filters ++ filters

/-! ## Nodes -/

/-- A directive as it stands in the source. -/
structure Span where
  raw : Text
  offset : Nat
deriving DecidableEq, Repr

structure Variable where
  path : Path
  /-- The value to show when the variable has none. -/
  default : Option Literal
  filters : List Filter
  /-- Whether the marker of the Mailjet dialect stands before the path. -/
  marked : Bool
  span : Span
deriving DecidableEq, Repr

inductive Bound
  | literal (l : Literal)
  | name (dotted : Text)
deriving DecidableEq, Repr

/-- What a loop runs over. -/
inductive LoopSource
  | collection (path : Path) (filters : List Filter)
  | range (bounds : List Bound)
deriving DecidableEq, Repr

/-- A tag without a Brevo counterpart, or one that closes it. -/
structure Unsupported where
  name : Text
  closing : Bool
  span : Span
deriving DecidableEq, Repr

mutual

/-- A part of a template. -/
inductive Node
  | text (raw : Text)
  | comment (raw : Text)
  | var (v : Variable)
  | ifBlock (condition : Expr) (tag : Span) (body : List Node) (more : Alternative)
  | forBlock (name : Text) (source : LoopSource) (tag : Span) (body : List Node)
  | unsupported (u : Unsupported)

/-- What follows the body of a conditional block. -/
inductive Alternative
  | endif
  | otherwise (body : List Node)
  | elseif (condition : Expr) (tag : Span) (body : List Node) (more : Alternative)

end

deriving instance Repr for Node, Alternative

/-- A template is a list of nodes. -/
abbrev Template := List Node

end MailDialect
