import MailDialect.Migration
import MailDialect.Preview

/-!
# Conversion around a renderer

Mail markup is compiled to HTML by a renderer that takes directives for plain text. The markup is
brought into the Brevo dialect before it is rendered, and the HTML once more after that, to reach
directives that the renderer put in.
-/

namespace MailDialect

/-- Compiles markup to HTML, or tells why it cannot. -/
abbrev Renderer := Text → Except Text Text

/-- The renderer for markup that is HTML already. -/
def Renderer.passthrough : Renderer :=
  fun markup => .ok markup

/-- Everything that a conversion yields. -/
structure Conversion where
  html : Text
  /-- The preview of the source, before anything was changed. -/
  preview : Preview
  diagnostics : List Diagnostic
deriving DecidableEq, Repr

/-- Adds a diagnostic unless one with the same snippet is there already. -/
def Diagnostic.insert (seen : List Diagnostic) (d : Diagnostic) : List Diagnostic :=
  if seen.any fun e => e.snippet == d.snippet then seen else seen ++ [d]

/-- The diagnostics of two passes; a directive reported once is not reported again. -/
def Diagnostic.merge (first second : List Diagnostic) : List Diagnostic :=
  second.foldl Diagnostic.insert first

/-- Converts markup to HTML in the Brevo dialect. -/
def convert (render : Renderer) (settings : Settings) (source : Text) :
    Except Failure Conversion := do
  let before ← migrate settings source
  let html ← (render before.output).mapError .render
  let after ← migrate settings html
  return ⟨after.output, Preview.ofSource source,
    Diagnostic.merge before.diagnostics after.diagnostics⟩

/-- The markup that a conversion hands to its renderer, if it comes that far. -/
def renderedMarkup? (settings : Settings) (source : Text) : Option Text :=
  match migrate settings source with
  | .ok before => some before.output
  | .error _ => none

end MailDialect
