import MailDialect.Dialect
import MailDialect.Template
import MailDialect.Template.GrammarError
import MailDialect.Text.Word

/-!
# Reading by rules

A reader takes a list of tokens and gives back a value and the tokens after it, fewer than it was
given, or the error of the first token that breaks the rules. What it knows besides the tokens is
the source, the namespace of parameters and the loop variables in scope.
-/

namespace MailDialect

/-- Whether a token starts like a word. -/
def Token.isWordLike (t : Token) : Bool :=
  t.text.head?.any isWordStart

namespace Reader

/-- What a reader knows of the place it reads at. -/
structure Env where
  source : Text
  /-- The namespace of template parameters. -/
  ns : Text
  /-- The variables of the loops around the place, innermost first. -/
  bound : List Text

/-- A value that was read, and the tokens after it, fewer than `size`. -/
structure Reading (α : Type) (size : Nat) where
  value : α
  rest : List Token
  below : rest.length < size

namespace Reading

variable {α β : Type} {m n : Nat} {t : Token} {rest : List Token}

/-- The same tokens were read for another value. -/
def map (f : α → β) (r : Reading α n) : Reading β n :=
  ⟨f r.value, r.rest, r.below⟩

/-- No token was read. -/
def nothing (value : α) (ts : List Token) : Reading α (ts.length + 1) :=
  ⟨value, ts, Nat.lt_add_one _⟩

/-- One token was read. -/
def one (value : α) : Reading α (t :: rest).length :=
  ⟨value, rest, Nat.lt_add_one _⟩

/-- There were more tokens than was known. -/
def widen (r : Reading α m) (h : m ≤ n) : Reading α n :=
  ⟨r.value, r.rest, Nat.lt_of_lt_of_le r.below h⟩

/-- It is forgotten that a token was read. -/
def relax (r : Reading α n) : Reading α (n + 1) :=
  r.widen (Nat.le_add_right n 1)

/-- A token was read before. -/
def after (r : Reading α rest.length) : Reading α (t :: rest).length :=
  r.relax

/-- A second reading begins where the first ends. -/
def andThen (first : Reading α n) (second : Reading β first.rest.length) : Reading β n :=
  second.widen (Nat.le_of_lt first.below)

/-- A second reading, possibly of nothing, begins where the first ends. -/
def andMaybe (first : Reading α n) (second : Reading β (first.rest.length + 1)) : Reading β n :=
  second.widen first.below

/-- A second reading begins one token after the end of the first. -/
def andAfter (first : Reading α n) (h : first.rest = t :: rest) (second : Reading β rest.length) :
    Reading β n :=
  first.andThen (second.widen (by rw [h, List.length_cons]; omega))

/-- The tokens after a reading are fewer, by more than one if the first of them is left out too. -/
theorem length_lt_of_rest_eq_cons (r : Reading α n) (h : r.rest = t :: rest) :
    rest.length + 1 < n := by
  have := r.below
  rw [h, List.length_cons] at this
  exact this

end Reading

/-- The outcome of a reader: what was read, with fewer than `size` tokens after it, or an error. -/
abbrev Outcome (α : Type) (size : Nat) := Except GrammarError (Reading α size)

namespace Env

/-- The tokens at hand are not what is expected. -/
def unexpected (env : Env) (ts : List Token) (expected : Expectation) : GrammarError :=
  match ts with
  | t :: _ => ⟨t.offset, expected, .ofToken t⟩
  | [] => ⟨Text.byteSize env.source, expected, .endOfInput⟩

/-- As `unexpected`, but a tag is told by its first word. -/
def unexpectedTag (env : Env) (ts : List Token) (expected : Expectation) : GrammarError :=
  match ts with
  | ⟨.opener .tag, _, offset⟩ :: t :: _ => ⟨offset, expected, .ofToken t⟩
  | ts => env.unexpected ts expected

/-- The directive that opens at byte `offset` and ends with the token `close`. -/
def span (env : Env) (offset : Nat) (close : Token) : Span :=
  ⟨Text.slice env.source offset close.stop, offset⟩

/-- Where a name is bound: in a loop around it, else in the namespace, else among the parameters. -/
def resolve (env : Env) (name : Text) : Scope :=
  if env.bound.contains name || (!env.bound.isEmpty && name == Dialect.loopHelper) then .loopLocal
  else if name == env.ns then .namespaced
  else .param

/-- The place inside a loop with variable `name`. -/
def enterLoop (env : Env) (name : Text) : Env :=
  { env with bound := name :: env.bound }

end Env

/-- The kind of the next token. -/
def peek (ts : List Token) : Option Token.Kind :=
  ts.head?.map Token.kind

/-- Reads one token of a given kind. -/
def expect (env : Env) (kind : Token.Kind) (expected : Expectation) (ts : List Token) :
    Outcome Token ts.length :=
  match ts with
  | t :: rest =>
    if t.kind = kind then .ok (.one t)
    else .error (env.unexpected (t :: rest) expected)
  | [] => .error (env.unexpected [] expected)

def closer (env : Env) (d : Delim) (ts : List Token) : Outcome Token ts.length :=
  expect env (.closer d) (.closer d) ts

end Reader

end MailDialect
