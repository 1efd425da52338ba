import MailDialect.Conversion

/-!
# Events

What a caller may watch while a template is brought over or converted: how many tokens and nodes
there were, each unsupported construct, and the passes of a conversion. Events come in order, up to
the place where a failure ends the matter.
-/

namespace MailDialect

/-- A step that was taken. -/
inductive Event
  | scanned (tokens : Nat)
  | parsed (nodes : Nat)
  | unsupported (d : Diagnostic)
  | previewed (names : Nat)
  | migratingSource
  | rendered (bytes : Nat)
  | migratingHtml
deriving DecidableEq, Repr

namespace Event

inductive Level
  | debug
  | warn
deriving DecidableEq, Repr

inductive Field
  | count (n : Nat)
  | text (t : Text)
deriving DecidableEq, Repr

/-- Only what is not supported calls for attention. -/
def level : Event → Level
  | unsupported _ => .warn
  | _ => .debug

def message : Event → String
  | scanned _ => "tokenized template"
  | parsed _ => "parsed template"
  | unsupported d => d.message
  | previewed _ => "extracted preview data"
  | migratingSource => "translating source markup"
  | rendered _ => "rendered markup"
  | migratingHtml => "translating rendered html"

def fields : Event → List (String × Field)
  | scanned tokens => [("tokens", .count tokens)]
  | parsed nodes => [("nodes", .count nodes)]
  | unsupported d => [("offset", .count d.offset), ("snippet", .text d.snippet)]
  | previewed names => [("variables", .count names)]
  | migratingSource => []
  | rendered bytes => [("bytes", .count bytes)]
  | migratingHtml => []

def ofTemplate (settings : Settings) (template : Template) : List Event :=
  parsed template.length
    :: if settings.strict then [] else template.diagnostics.map unsupported

def ofMigration (settings : Settings) (source : Text) : List Event :=
  match settings.validate, Token.scan source with
  | .ok _, .ok tokens =>
    scanned tokens.length ::
      match Template.ofTokens source tokens settings.ns with
      | .ok template => ofTemplate settings template
      | .error _ => []
  | _, _ => []

def ofConversion (render : Renderer) (settings : Settings) (source : Text) : List Event :=
  [previewed (Preview.ofSource source).length, migratingSource] ++ ofMigration settings source ++
    match (renderedMarkup? settings source).map render with
    | some (.ok html) =>
      [rendered (Text.byteSize html), migratingHtml] ++ ofMigration settings html
    | _ => []

end Event

end MailDialect
