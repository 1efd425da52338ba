import MailDialect.Template.Reader.Operand

/-!
# Reading single directives

```text
comment     = "{#" [ TEXT ] "#}"
variable    = "{{" path [ ":" STRING ] filters "}}"
unsupported = "{%" NAME { any token but "%}" } "%}"
loop source = "range" "(" bounds ")" | path filters
```

Each reader starts after the opener, whose byte place it is given.
-/

namespace MailDialect.Reader

/-- The tokens after the body of a comment. -/
def skipText : List Token → List Token
  | ⟨.text, _, _⟩ :: rest => rest
  | ts => ts

theorem length_skipText_le (ts : List Token) : (skipText ts).length ≤ ts.length := by
  unfold skipText
  split <;> simp

/-- Reads the body and the closer of a comment. -/
def comment (env : Env) (offset : Nat) (ts : List Token) : Outcome Span ts.length := do
  let close ← closer env .comment (skipText ts)
  return (close.widen (length_skipText_le ts)).map (env.span offset)

/-- Reads the default of a variable, if there is one. -/
def defaultValue (env : Env) : (ts : List Token) → Outcome (Option Literal) (ts.length + 1)
  | ⟨.punct .colon, _, _⟩ :: ⟨.string value, _, _⟩ :: _ =>
    .ok (Reading.after (.one (some (.string value)))).relax
  | ⟨.punct .colon, _, _⟩ :: rest => .error (env.unexpected rest .defaultValue)
  | ts => .ok (.nothing none ts)

def var (env : Env) (offset : Nat) (ts : List Token) : Outcome Variable ts.length := do
  let p ← path env .variableName ts
  let value ← defaultValue env p.rest
  let fs ← filters env value.rest
  let close ← closer env .var fs.rest
  return (p.andMaybe (value.andMaybe (fs.andThen close))).map fun close =>
    ⟨p.value.1, value.value, fs.value, p.value.2, env.span offset close⟩

/-- The tokens from the closer of a tag on. -/
def skipArguments (ts : List Token) : List Token :=
  ts.dropWhile fun t => t.kind != .closer .tag

theorem length_skipArguments_le (ts : List Token) : (skipArguments ts).length ≤ ts.length :=
  (List.dropWhile_sublist _).length_le

/-- Reads the arguments of a tag, whatever they are, and its closer. -/
def closeAfterArguments (env : Env) (ts : List Token) : Outcome Token ts.length := do
  let close ← closer env .tag (skipArguments ts)
  return close.widen (length_skipArguments_le ts)

/-- Reads a tag that has no Brevo counterpart, or one that closes such a tag. -/
def unsupported (env : Env) (offset : Nat) (ts : List Token) : Outcome Unsupported ts.length := do
  let name ← expect env .name .tagName ts
  match Dialect.tag? name.value.text with
  | none => throw (env.unexpected ts .knownTag)
  | some (tag, closing) =>
    let close ← closeAfterArguments env name.rest
    return (name.andThen close).map fun close => ⟨tag, closing, env.span offset close⟩

def loopSource (env : Env) (ts : List Token) : Outcome LoopSource ts.length :=
  match ts with
  | ⟨.keyword .kwRange, _, _⟩ :: rest => do
    let opening ← expect env (.punct .lparen) .rangeParen rest
    let args ← bounds env opening.rest
    let close ← expect env (.punct .rparen) .closeParen args.rest
    return (opening.andThen (args.andThen close)).after.map fun _ => .range args.value
  | ts => do
    let p ← path env .collection ts
    let fs ← filters env p.rest
    return (p.andMaybe fs).map (.collection p.value.1)

end MailDialect.Reader
