import MailDialect.Diagnostic
import MailDialect.Text.Quoted

/-!
# Writing templates in the Brevo dialect

Parameters get the namespace before them, and markers and defaults of the Mailjet dialect give way
to plain paths and the `default` filter. Text, comments, numeric loops, directives with an
unsupported filter, unsupported tags, and variables that both dialects write alike stay as they are.
-/

namespace MailDialect

/-- A text between the delimiters of a directive. -/
def Delim.enclose (d : Delim) (body : Text) : Text :=
  d.opener ++ body ++ d.closer

/-! ## Operands -/

/-- A path, with the namespace before it if its base is a parameter. -/
def Path.print (ns : Text) (p : Path) : Text :=
  match p.scope with
  | .param => ns ++ '.' :: p.dotted
  | .loopLocal => p.dotted
  | .namespaced => p.dotted

def Literal.print : Literal → Text
  | string value => Quoted.write value
  | number digits => digits
  | bool true => ['t', 'r', 'u', 'e']
  | bool false => ['f', 'a', 'l', 's', 'e']

def Filter.print (f : Filter) : Text :=
  match f.style with
  | .bare => f.name
  | .colon => f.name ++ ':' :: List.intercalate [','] (f.args.map Literal.print)
  | .call => f.name ++ '(' :: List.intercalate [',', ' '] (f.args.map Literal.print) ++ [')']

/-- Filters, each after a bar. -/
def Filter.printAll (filters : List Filter) : Text :=
  filters.flatMap fun f => '|' :: f.print

def Connective.spelling : Connective → Text
  | and => ['a', 'n', 'd']
  | or => ['o', 'r']

def Expr.print (ns : Text) : Expr → Text
  | path p => p.print ns
  | literal l => l.print
  | compare left op right => left.print ns ++ ' ' :: op.spelling ++ ' ' :: right.print ns
  | logical left op right => left.print ns ++ ' ' :: op.spelling ++ ' ' :: right.print ns
  | not inner => ['n', 'o', 't', ' '] ++ inner.print ns
  | group inner => '(' :: inner.print ns ++ [')']
  | filtered inner filters => inner.print ns ++ Filter.printAll filters

/-! ## Directives -/

/-- Whether a variable is written in a form that only the Mailjet dialect has. -/
def Variable.isForeign (v : Variable) : Bool :=
  v.path.scope == .param || v.marked || v.default.isSome

/-- The default of a variable as a filter; an empty default has no effect and is left out. -/
def Variable.printDefault (v : Variable) : Text :=
  match v.default with
  | none => []
  | some (.string []) => []
  | some value => '|' :: Dialect.defaultFilter ++ ':' :: value.print

def Variable.print (ns : Text) (v : Variable) : Text :=
  if v.filters.any Filter.isUnsupported || !v.isForeign then v.span.raw
  else Delim.var.enclose (v.path.print ns ++ v.printDefault ++ Filter.printAll v.filters)

/-- A tag that holds only a word. -/
def printTag (word : Text) : Text :=
  Delim.tag.enclose (' ' :: word ++ [' '])

def Expr.printTag (ns word : Text) (condition : Expr) (tag : Span) : Text :=
  if condition.filters.any Filter.isUnsupported then tag.raw
  else MailDialect.printTag (word ++ ' ' :: condition.print ns)

/-- The first tag of a loop. -/
def LoopSource.printTag (ns name : Text) (source : LoopSource) (tag : Span) : Text :=
  match source with
  | .range _ => tag.raw
  | .collection path filters =>
    if filters.any Filter.isUnsupported then tag.raw
    else
      MailDialect.printTag (['f', 'o', 'r', ' '] ++ name ++ [' ', 'i', 'n', ' '] ++ path.print ns
        ++ Filter.printAll filters)

/-! ## Nodes -/

mutual

def Node.print (ns : Text) : Node → Text
  | .text raw => raw
  | .comment raw => raw
  | .var v => v.print ns
  | .ifBlock condition tag body more =>
    condition.printTag ns ['i', 'f'] tag ++ Template.print ns body ++ more.print ns
  | .forBlock name source tag body =>
    source.printTag ns name tag ++ Template.print ns body
      ++ printTag ['e', 'n', 'd', 'f', 'o', 'r']
  | .unsupported u => u.span.raw

/-- The further branches and the end of a conditional block. -/
def Alternative.print (ns : Text) : Alternative → Text
  | .endif => printTag ['e', 'n', 'd', 'i', 'f']
  | .otherwise body =>
    printTag ['e', 'l', 's', 'e'] ++ Template.print ns body ++ printTag ['e', 'n', 'd', 'i', 'f']
  | .elseif condition tag body more =>
    condition.printTag ns ['e', 'l', 'i', 'f'] tag ++ Template.print ns body ++ more.print ns

def Template.print (ns : Text) : Template → Text
  | [] => []
  | node :: rest => node.print ns ++ Template.print ns rest

end

end MailDialect
