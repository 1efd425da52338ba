import MailDialect.Template.Reader

/-!
# Reading literals, filters and paths

```text
literal  = STRING | NUMBER | "-" NUMBER | "true" | "false"
literals = literal { "," literal }
filter   = NAME [ ":" literals | "(" [ literals ] ")" ]
filters  = { "|" filter }
path     = [ "var" ":" ] NAME { "." ( word | NUMBER ) }
bounds   = bound { "," bound }, at most three
bound    = path | literal
```
-/

namespace MailDialect.Reader

/-- Reads a literal; a minus sign belongs to the number after it. -/
def literal (env : Env) : (ts : List Token) → Outcome Literal ts.length
  | ⟨.string value, _, _⟩ :: _ => .ok (.one (.string value))
  | ⟨.number, digits, _⟩ :: _ => .ok (.one (.number digits))
  | ⟨.keyword .kwTrue, _, _⟩ :: _ => .ok (.one (.bool true))
  | ⟨.keyword .kwFalse, _, _⟩ :: _ => .ok (.one (.bool false))
  | ⟨.punct .minus, _, _⟩ :: ⟨.number, digits, _⟩ :: _ =>
    .ok (Reading.after (.one (.number ('-' :: digits))))
  | ts => .error (env.unexpected ts .literal)

/-- Reads one item or more, with commas between them. -/
def commaSeparated {α : Type} (item : (ts : List Token) → Outcome α ts.length) (ts : List Token) :
    Outcome (List α) ts.length := do
  let first ← item ts
  match h : first.rest with
  | ⟨.punct .comma, _, _⟩ :: rest =>
    let more ← commaSeparated item rest
    return (first.andAfter h more).map (first.value :: ·)
  | _ => return first.map ([·])
termination_by ts.length
decreasing_by have := first.length_lt_of_rest_eq_cons h; omega

/-- Reads the arguments of a filter. -/
def literals (env : Env) : (ts : List Token) → Outcome (List Literal) ts.length :=
  commaSeparated (literal env)

def filter (env : Env) (ts : List Token) : Outcome Filter ts.length := do
  let name ← expect env .name .filterName ts
  match h : name.rest with
  | ⟨.punct .colon, _, _⟩ :: rest =>
    let args ← literals env rest
    return (name.andAfter h args).map fun args => ⟨name.value.text, .colon, args⟩
  | ⟨.punct .lparen, _, _⟩ :: ⟨.punct .rparen, _, _⟩ :: _ =>
    return name.andAfter h (.one ⟨name.value.text, .call, []⟩)
  | ⟨.punct .lparen, _, _⟩ :: rest =>
    let args ← literals env rest
    let close ← expect env (.punct .rparen) .closeParen args.rest
    return (name.andAfter h (args.andThen close)).map fun _ =>
      ⟨name.value.text, .call, args.value⟩
  | _ => return name.map fun name => ⟨name.text, .bare, []⟩

/-- Reads filters for as long as bars follow. -/
def filters (env : Env) (ts : List Token) : Outcome (List Filter) (ts.length + 1) :=
  match ts with
  | ⟨.punct .pipe, _, _⟩ :: rest => do
    let first ← filter env rest
    let more ← filters env first.rest
    return (first.andMaybe more).after.relax.map (first.value :: ·)
  | ts => .ok (.nothing [] ts)
termination_by ts.length
decreasing_by have := first.below; simp only [List.length_cons]; omega

/-- Whether the marker of a variable stands here, and the tokens after it. The marker counts only
before a word, so `var` can name a variable too. -/
def marker : List Token → Bool × List Token
  | ⟨.name, text, offset⟩ :: ⟨.punct .colon, colon, place⟩ :: t :: rest =>
    if text == Dialect.marker && t.isWordLike then (true, t :: rest)
    else (false, ⟨.name, text, offset⟩ :: ⟨.punct .colon, colon, place⟩ :: t :: rest)
  | ts => (false, ts)

/-- The marker takes tokens away and adds none. -/
theorem length_marker_le (ts : List Token) : (marker ts).2.length ≤ ts.length := by
  unfold marker
  split
  · split
    · simp only [List.length_cons]
      omega
    · exact Nat.le_refl _
  · exact Nat.le_refl _

/-- Reads the properties taken from a name. -/
def fields (env : Env) : (ts : List Token) → Outcome (List Text) (ts.length + 1)
  | ⟨.punct .dot, _, _⟩ :: t :: rest =>
    if t.isWordLike || t.kind == .number then do
      let more ← fields env rest
      return more.relax.relax.map (t.text :: ·)
    else .error (env.unexpected (t :: rest) .property)
  | [⟨.punct .dot, _, _⟩] => .error (env.unexpected [] .property)
  | ts => .ok (.nothing [] ts)

/-- Reads a path, and tells whether it was marked. -/
def path (env : Env) (expected : Expectation) (ts : List Token) :
    Outcome (Path × Bool) ts.length := do
  let base ← expect env .name expected (marker ts).2
  let more ← fields env base.rest
  let name := base.value.text
  return ((base.andMaybe more).widen (length_marker_le ts)).map fun fields =>
    (⟨name, fields, env.resolve name⟩, (marker ts).1)

def bound (env : Env) (ts : List Token) : Outcome Bound ts.length :=
  match peek ts with
  | some .name => do
    let p ← path env .rangeBound ts
    return p.map fun p => .name p.1.dotted
  | _ => do
    let l ← literal env ts
    return l.map .literal

/-- Reads the one, two or three bounds of a numeric loop. Too many are told by the place of the
first. -/
def bounds (env : Env) (ts : List Token) : Outcome (List Bound) ts.length :=
  match peek ts with
  | some (.punct .rparen) => .error (env.unexpected ts .rangeArguments)
  | _ => do
    let args ← commaSeparated (bound env) ts
    if args.value.length ≤ 3 then return args
    else
      throw { env.unexpected ts .rangeArguments with found := .arguments args.value.length }

end MailDialect.Reader
