import MailDialect.Text

/-!
# The two dialects

What the Brevo dialect lacks of the Mailjet dialect, and the names that both give a meaning to.
-/

namespace MailDialect.Dialect

/-- Tags without a Brevo counterpart. -/
def unsupportedTags : List Text :=
  [['s', 'e', 't'],
   ['i', 'n', 'c', 'l', 'u', 'd', 'e'],
   ['e', 'x', 't', 'e', 'n', 'd', 's'],
   ['b', 'l', 'o', 'c', 'k'],
   ['m', 'a', 'c', 'r', 'o'],
   ['i', 'm', 'p', 'o', 'r', 't'],
   ['f', 'r', 'o', 'm'],
   ['a', 'u', 't', 'o', 'e', 's', 'c', 'a', 'p', 'e'],
   ['s', 'p', 'a', 'c', 'e', 'l', 'e', 's', 's']]

/-- No unsupported tag is the end of another. -/
theorem end_not_mem_unsupportedTags (tag : Text) : 'e' :: 'n' :: 'd' :: tag ∉ unsupportedTags := by
  simp [unsupportedTags]

/-- Filters without a Brevo counterpart. -/
def unsupportedFilters : List Text :=
  [['d', 'a', 't', 'e', '_', 'm', 'o', 'd', 'i', 'f', 'y'],
   ['t', 'r', 'a', 'n', 's'],
   ['r', 'a', 'w'],
   ['b', 'a', 't', 'c', 'h']]

/-- The name that every loop body sees besides its loop variable. -/
def loopHelper : Text :=
  ['l', 'o', 'o', 'p']

/-- The name of the filter that gives a default. -/
def defaultFilter : Text :=
  ['d', 'e', 'f', 'a', 'u', 'l', 't']

/-- The word that marks a variable in the Mailjet dialect, before a colon. -/
def marker : Text :=
  ['v', 'a', 'r']

/-- The namespace of template parameters unless another is chosen. -/
def defaultNamespace : Text :=
  ['p', 'a', 'r', 'a', 'm', 's']

/-- An unsupported tag that a name opens or, with `end` before it, closes. -/
def tag? (name : Text) : Option (Text × Bool) :=
  if unsupportedTags.contains name then some (name, false)
  else
    match name with
    | 'e' :: 'n' :: 'd' :: opened =>
      if unsupportedTags.contains opened then some (opened, true) else none
    | _ => none

end MailDialect.Dialect
