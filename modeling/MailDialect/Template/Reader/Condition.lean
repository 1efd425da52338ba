import MailDialect.Template.Reader.Operand

/-!
# Reading conditions

```text
condition   = conjunction { "or" conjunction }
conjunction = negation { "and" negation }
negation    = "not" negation | comparison
comparison  = value [ OPERATOR value ]
value       = "(" condition ")" | path filters | literal
```

Both connectives group to the left, and a comparison is not compared again.
-/

namespace MailDialect.Reader

/-- Whether a literal can start with a token of this kind. -/
def startsLiteral : Token.Kind → Bool
  | .string _ => true
  | .number => true
  | .keyword .kwTrue => true
  | .keyword .kwFalse => true
  | .punct .minus => true
  | _ => false

/-- A path with filters is an operand of its own; without any it is the path alone. -/
def applyFilters (operand : Expr) (filters : List Filter) : Expr :=
  if filters.isEmpty then operand else .filtered operand filters

mutual

def condition (env : Env) (ts : List Token) : Outcome Expr ts.length := do
  let first ← conjunction env ts
  let all ← disjuncts env first.value first.rest
  return first.andMaybe all
termination_by 8 * ts.length + 6
decreasing_by
  · omega
  · have := first.below; omega

/-- Reads what is joined to `left` by `or`. -/
def disjuncts (env : Env) (left : Expr) (ts : List Token) : Outcome Expr (ts.length + 1) :=
  match ts with
  | ⟨.keyword .kwOr, _, _⟩ :: rest => do
    let right ← conjunction env rest
    let all ← disjuncts env (.logical left .or right.value) right.rest
    return (right.andMaybe all).after.relax
  | ts => .ok (.nothing left ts)
termination_by 8 * ts.length + 5
decreasing_by
  · simp only [List.length_cons]; omega
  · have := right.below; simp only [List.length_cons]; omega

/-- Reads negations joined by `and`. -/
def conjunction (env : Env) (ts : List Token) : Outcome Expr ts.length := do
  let first ← negation env ts
  let all ← conjuncts env first.value first.rest
  return first.andMaybe all
termination_by 8 * ts.length + 4
decreasing_by
  · omega
  · have := first.below; omega

/-- Reads what is joined to `left` by `and`. -/
def conjuncts (env : Env) (left : Expr) (ts : List Token) : Outcome Expr (ts.length + 1) :=
  match ts with
  | ⟨.keyword .kwAnd, _, _⟩ :: rest => do
    let right ← negation env rest
    let all ← conjuncts env (.logical left .and right.value) right.rest
    return (right.andMaybe all).after.relax
  | ts => .ok (.nothing left ts)
termination_by 8 * ts.length + 3
decreasing_by
  · simp only [List.length_cons]; omega
  · have := right.below; simp only [List.length_cons]; omega

/-- Reads a comparison with any number of `not` before it. -/
def negation (env : Env) (ts : List Token) : Outcome Expr ts.length :=
  match ts with
  | ⟨.keyword .kwNot, _, _⟩ :: rest => do
    let inner ← negation env rest
    return inner.after.map .not
  | ts => comparison env ts
termination_by 8 * ts.length + 2
decreasing_by
  · simp only [List.length_cons]; omega
  · omega

/-- Reads a value and, after an operator, the value it is compared with. -/
def comparison (env : Env) (ts : List Token) : Outcome Expr ts.length := do
  let left ← value env ts
  match h : left.rest with
  | ⟨.comparison op, _, _⟩ :: rest =>
    let right ← value env rest
    return (left.andAfter h right).map (.compare left.value op)
  | _ => return left
termination_by 8 * ts.length + 1
decreasing_by
  · omega
  · have := left.length_lt_of_rest_eq_cons h; omega

/-- Reads a condition in parentheses, a path with its filters, or a literal. -/
def value (env : Env) (ts : List Token) : Outcome Expr ts.length :=
  match ts with
  | ⟨.punct .lparen, _, _⟩ :: rest => do
    let inner ← condition env rest
    let close ← expect env (.punct .rparen) .closeParen inner.rest
    return (inner.andThen close).after.map fun _ => .group inner.value
  | ts =>
    match peek ts with
    | some .name => do
      let p ← path env .operand ts
      let fs ← filters env p.rest
      return (p.andMaybe fs).map (applyFilters (.path p.value.1))
    | kind =>
      if kind.any startsLiteral then do
        let l ← literal env ts
        return l.map .literal
      else .error (env.unexpected ts .operand)
termination_by 8 * ts.length
decreasing_by simp only [List.length_cons]; omega

end

end MailDialect.Reader
