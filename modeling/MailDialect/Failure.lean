import MailDialect.Diagnostic
import MailDialect.Template.GrammarError
import MailDialect.Token.Problem

/-!
# Failures

Why a template cannot be brought into the Brevo dialect at all.
-/

namespace MailDialect

/-- The causes of failure. -/
inductive Failure
  /-- The source has no tokens. -/
  | scan (error : ScanError)
  /-- The tokens form no template. -/
  | grammar (error : GrammarError)
  /-- The template holds unsupported constructs, which the settings forbid. -/
  | unconvertible (diagnostics : List Diagnostic)
  /-- The renderer gave up. -/
  | render (reason : Text)
  /-- The namespace is not a word. -/
  | invalidNamespace (ns : Text)
deriving DecidableEq, Repr

def Failure.message : Failure → String
  | scan error => error.message
  | grammar error => error.message
  | unconvertible diagnostics =>
    "Cannot convert Mailjet syntax to Brevo: "
      ++ String.intercalate ", " (diagnostics.map Diagnostic.message)
  | render reason => "render failed: " ++ String.ofList reason
  | invalidNamespace ns =>
    "invalid namespace '" ++ String.ofList ns ++ "': must be a plain identifier"

end MailDialect
