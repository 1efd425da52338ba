import MailDialect.Template.Reader.Condition
import MailDialect.Template.Reader.Directive

/-!
# Reading templates

```text
template    = { node }
node        = TEXT | comment | variable | unsupported
            | "{%" "if" condition "%}" { node } alternative
            | "{%" "for" NAME "in" loop source "%}" { node } "{%" "endfor" "%}"
alternative = "{%" ( "elseif" | "elif" | "else" "if" ) condition "%}" { node } alternative
            | "{%" "else" "%}" { node } "{%" "endif" "%}"
            | "{%" "endif" "%}"
```

A tag that ends or divides a block also ends the list of nodes before it, and is left to the block.
-/

namespace MailDialect

namespace Reader

/-- Whether a tag with this word ends or divides a block. -/
def dividesBlock : Token.Kind → Bool
  | .keyword .kwElseif => true
  | .keyword .kwElse => true
  | .keyword .kwEndif => true
  | .keyword .kwEndfor => true
  | _ => false

/-- Reads the end of a conditional block whose `else` was read already. -/
def endifAfterElse (env : Env) (ts : List Token) : Outcome Unit ts.length :=
  match ts with
  | ⟨.opener .tag, _, _⟩ :: ⟨.keyword .kwEndif, _, _⟩ :: rest => do
    let close ← closer env .tag rest
    return close.after.after.map fun _ => ()
  | ⟨.opener .tag, _, _⟩ :: ⟨.keyword .kwElseif, _, _⟩ :: _ =>
    .error (env.unexpectedTag ts .endifAfterElse)
  | ⟨.opener .tag, _, _⟩ :: ⟨.keyword .kwElse, _, _⟩ :: _ =>
    .error (env.unexpectedTag ts .endifAfterElse)
  | [] => .error (env.unexpected ts .endif)
  | _ => .error (env.unexpectedTag ts .clause)

def endfor (env : Env) : (ts : List Token) → Outcome Unit ts.length
  | ⟨.opener .tag, _, _⟩ :: ⟨.keyword .kwEndfor, _, _⟩ :: rest => do
    let close ← closer env .tag rest
    return close.after.after.map fun _ => ()
  | ts => .error (env.unexpectedTag ts .endfor)

mutual

/-- Reads nodes up to the end of the template or of the block they stand in. -/
def nodes (env : Env) (ts : List Token) : Outcome (List Node) (ts.length + 1) := do
  match ← node env ts with
  | none => return .nothing [] ts
  | some first =>
    let more ← nodes env first.rest
    return (first.andMaybe more).relax.map (first.value :: ·)
termination_by 4 * ts.length + 1
decreasing_by
  · omega
  · have := first.below; omega

/-- Reads one node; there is none at the end of the template or of a block. -/
def node (env : Env) (ts : List Token) : Except GrammarError (Option (Reading Node ts.length)) :=
  match ts with
  | [] => .ok none
  | ⟨.text, raw, _⟩ :: _ => .ok (some (.one (.text raw)))
  | ⟨.opener .comment, _, offset⟩ :: rest => do
    let c ← comment env offset rest
    return some (c.after.map fun span => .comment span.raw)
  | ⟨.opener .var, _, offset⟩ :: rest => do
    let v ← var env offset rest
    return some (v.after.map .var)
  | ⟨.opener .tag, _, offset⟩ :: ⟨.keyword .kwIf, _, _⟩ :: rest => do
    let block ← ifBlock env offset rest
    return some block.after.after
  | ⟨.opener .tag, _, offset⟩ :: ⟨.keyword .kwFor, _, _⟩ :: rest => do
    let block ← forBlock env offset rest
    return some block.after.after
  | ⟨.opener .tag, _, offset⟩ :: rest =>
    match peek rest with
    | some .name => do
      let u ← unsupported env offset rest
      return some (u.after.map .unsupported)
    | kind =>
      if kind.any dividesBlock then .ok none
      else .error (env.unexpected rest .tagName)
  | ts => .error (env.unexpected ts .textOrDirective)
termination_by 4 * ts.length
decreasing_by
  · simp only [List.length_cons]; omega
  · simp only [List.length_cons]; omega

/-- Reads a conditional block after its first word. -/
def ifBlock (env : Env) (offset : Nat) (ts : List Token) : Outcome Node ts.length := do
  let c ← condition env ts
  let close ← closer env .tag c.rest
  let body ← nodes env close.rest
  let more ← alternative env body.rest
  return (c.andThen (close.andMaybe (body.andThen more))).map
    (.ifBlock c.value (env.span offset close.value) body.value)
termination_by 4 * ts.length + 3
decreasing_by
  · have := c.below; have := close.below; omega
  · have := c.below; have := close.below; have := body.below; omega

/-- Reads what follows a body of a conditional block. -/
def alternative (env : Env) (ts : List Token) : Outcome Alternative ts.length :=
  match ts with
  | ⟨.opener .tag, _, offset⟩ :: ⟨.keyword .kwElseif, _, _⟩ :: rest => do
    let clause ← elseif env offset rest
    return clause.after.after
  | ⟨.opener .tag, _, offset⟩ :: ⟨.keyword .kwElse, _, _⟩ :: ⟨.keyword .kwIf, _, _⟩ :: rest => do
    let clause ← elseif env offset rest
    return clause.after.after.after
  | ⟨.opener .tag, _, _⟩ :: ⟨.keyword .kwElse, _, _⟩ :: rest => do
    let close ← closer env .tag rest
    let body ← nodes env close.rest
    let done ← endifAfterElse env body.rest
    return (close.andMaybe (body.andThen done)).after.after.map fun _ => .otherwise body.value
  | ⟨.opener .tag, _, _⟩ :: ⟨.keyword .kwEndif, _, _⟩ :: rest => do
    let close ← closer env .tag rest
    return close.after.after.map fun _ => .endif
  | [] => .error (env.unexpected [] .endif)
  | ts => .error (env.unexpectedTag ts .clause)
termination_by 4 * ts.length
decreasing_by
  · simp only [List.length_cons]; omega
  · simp only [List.length_cons]; omega
  · have := close.below; simp only [List.length_cons]; omega

/-- Reads a further condition of a block, its body and what follows. -/
def elseif (env : Env) (offset : Nat) (ts : List Token) : Outcome Alternative ts.length := do
  let c ← condition env ts
  let close ← closer env .tag c.rest
  let body ← nodes env close.rest
  let more ← alternative env body.rest
  return (c.andThen (close.andMaybe (body.andThen more))).map
    (.elseif c.value (env.span offset close.value) body.value)
termination_by 4 * ts.length + 3
decreasing_by
  · have := c.below; have := close.below; omega
  · have := c.below; have := close.below; have := body.below; omega

/-- Reads a loop after its first word. What the loop runs over does not see the loop variable. -/
def forBlock (env : Env) (offset : Nat) (ts : List Token) : Outcome Node ts.length := do
  let name ← expect env .name .loopVariable ts
  let kwIn ← expect env (.keyword .kwIn) .kwIn name.rest
  let source ← loopSource env kwIn.rest
  let close ← closer env .tag source.rest
  let body ← nodes (env.enterLoop name.value.text) close.rest
  let done ← endfor env body.rest
  return (name.andThen (kwIn.andThen (source.andThen (close.andMaybe (body.andThen done))))).map
    fun _ => .forBlock name.value.text source.value (env.span offset close.value) body.value
termination_by 4 * ts.length + 3
decreasing_by
  have := name.below
  have := kwIn.below
  have := source.below
  have := close.below
  omega

end

end Reader

open Reader in
/-- The template that a list of tokens of `source` forms; `ns` is the namespace of parameters. -/
def Template.ofTokens (source : Text) (ts : List Token) (ns : Text) :
    Except GrammarError Template := do
  let env : Env := ⟨source, ns, []⟩
  let all ← nodes env ts
  match all.rest with
  | [] => return all.value
  | rest =>
    match peek rest.tail with
    | some (.keyword .kwEndfor) => throw (env.unexpectedTag rest .enclosingFor)
    | _ => throw (env.unexpectedTag rest .enclosingIf)

end MailDialect
