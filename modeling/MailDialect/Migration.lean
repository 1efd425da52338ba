import MailDialect.Settings
import MailDialect.Template.Printer
import MailDialect.Template.Reader.Block
import MailDialect.Token.Scanner

/-!
# Bringing a template into the Brevo dialect

The source is divided into tokens, the tokens are read as a template, and the template is written in
the Brevo dialect. Errors of the source end the matter; unsupported constructs are reported, and are
a failure only if the settings say so.
-/

namespace MailDialect

/-- The template of a source text. -/
def Template.parse (source ns : Text) : Except Failure Template := do
  let tokens ← (Token.scan source).mapError .scan
  (Template.ofTokens source tokens ns).mapError .grammar

/-- A text in the Brevo dialect, and what in it is not. -/
structure Migration where
  output : Text
  diagnostics : List Diagnostic
deriving DecidableEq, Repr

/-- Whether everything could be brought over. -/
def Migration.isClean (m : Migration) : Bool :=
  m.diagnostics.isEmpty

/-- Brings a source text into the Brevo dialect. -/
def migrate (settings : Settings) (source : Text) : Except Failure Migration := do
  settings.validate
  let template ← Template.parse source settings.ns
  let diagnostics := template.diagnostics
  if settings.strict && !diagnostics.isEmpty then throw (.unconvertible diagnostics)
  return ⟨template.print settings.ns, diagnostics⟩

end MailDialect
