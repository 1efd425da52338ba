import MailDialect.Dialect
import MailDialect.Template

/-!
# Diagnostics

A directive that uses a tag or a filter without a Brevo counterpart is passed on as written and
reported: every tag of that kind once, and every filter of that kind once for each use, in the order
of the source. A tag that closes an unsupported tag is never reported, with or without one to close.
-/

namespace MailDialect

/-- What the Brevo dialect lacks. -/
inductive Diagnostic.Construct
  | tag (name : Text)
  | filter (name : Text)
deriving DecidableEq, Repr

def Diagnostic.Construct.message : Diagnostic.Construct → String
  | tag name => "Tag '" ++ String.ofList name ++ "' is not supported in Brevo"
  | filter name => "Filter '" ++ String.ofList name ++ "' is not supported in Brevo"

/-- An unsupported construct and the directive it stands in. -/
structure Diagnostic where
  construct : Diagnostic.Construct
  /-- The whole directive as written. -/
  snippet : Text
  /-- The byte where the directive starts. -/
  offset : Nat
deriving DecidableEq, Repr

def Diagnostic.message (d : Diagnostic) : String :=
  d.construct.message

def Filter.isUnsupported (f : Filter) : Bool :=
  Dialect.unsupportedFilters.contains f.name

/-- One diagnostic for each unsupported filter of a directive. -/
def Span.filterDiagnostics (span : Span) (filters : List Filter) : List Diagnostic :=
  (filters.filter Filter.isUnsupported).map fun f => ⟨.filter f.name, span.raw, span.offset⟩

/-- The filters applied to what a loop runs over. -/
def LoopSource.filters : LoopSource → List Filter
  | collection _ filters => filters
  | range _ => []

def Unsupported.diagnostics (u : Unsupported) : List Diagnostic :=
  if u.closing then [] else [⟨.tag u.name, u.span.raw, u.span.offset⟩]

mutual

def Node.diagnostics : Node → List Diagnostic
  | .text _ => []
  | .comment _ => []
  | .var v => v.span.filterDiagnostics v.filters
  | .ifBlock condition tag body more =>
    tag.filterDiagnostics condition.filters ++ Template.diagnostics body ++ more.diagnostics
  | .forBlock _ source tag body =>
    tag.filterDiagnostics source.filters ++ Template.diagnostics body
  | .unsupported u => u.diagnostics

def Alternative.diagnostics : Alternative → List Diagnostic
  | .endif => []
  | .otherwise body => Template.diagnostics body
  | .elseif condition tag body more =>
    tag.filterDiagnostics condition.filters ++ Template.diagnostics body ++ more.diagnostics

def Template.diagnostics : Template → List Diagnostic
  | [] => []
  | node :: rest => node.diagnostics ++ Template.diagnostics rest

end

end MailDialect
