import MailDialect.Failure
import MailDialect.Text.Word

/-!
# Settings

How a template is to be brought into the Brevo dialect, and how settings are read from a
configuration file.
-/

namespace MailDialect

/-- The choices a caller has. -/
structure Settings where
  /-- Whether unsupported constructs are a failure. -/
  strict : Bool
  /-- The namespace that parameters are put into. -/
  ns : Text
deriving DecidableEq, Repr

/-- A value of a configuration file. Numbers and nulls are never settings. -/
inductive Config
  | flag (value : Bool)
  | text (value : Text)
  | list (items : List Config)
  | record (entries : List (String × Config))
  | other

namespace Settings

/-- The settings of a caller who chooses nothing. -/
def default : Settings :=
  ⟨false, Dialect.defaultNamespace⟩

/-- As `default`, but strict. -/
def strictly : Settings :=
  { default with strict := true }

/-- The same settings with another namespace. -/
def withNamespace (s : Settings) (ns : Text) : Settings :=
  { s with ns := ns }

/-- A namespace has to be a word. -/
def validate (s : Settings) : Except Failure Unit :=
  if s.ns.isWord then .ok () else .error (.invalidNamespace s.ns)

/-- The strictness that a configuration asks for, which may be left out. -/
def strictOf? : Option Config → Option Bool
  | none => some default.strict
  | some (.flag value) => some value
  | some _ => none

/-- The namespace that a configuration asks for, which may be left out. -/
def nsOf? : Option Config → Option Text
  | none => some default.ns
  | some (.text value) => some value
  | some _ => none

/-- Settings come from a record with the keys `strict` and `namespace`, or from a list of at most
two items in that order. Other keys are ignored; an item of another kind spoils the whole. -/
def ofConfig? : Config → Option Settings
  | .record entries => do
    return ⟨← strictOf? (entries.lookup "strict"), ← nsOf? (entries.lookup "namespace")⟩
  | .list items =>
    if items.length ≤ 2 then do
      return ⟨← strictOf? items[0]?, ← nsOf? items[1]?⟩
    else none
  | _ => none

end Settings

end MailDialect
