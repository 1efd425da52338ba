import MailDialect.Dialect
import MailDialect.Proofs.Lexeme
import MailDialect.Template

/-!
# The grammar of templates

The rules by which tokens form a template, as relations between a list of tokens and what it is the
text of. Tokens count by their kind and text alone. The scopes of paths are left open: they are not
a matter of grammar.

```text
literal     = STRING | NUMBER | "-" NUMBER | "true" | "false"
filter      = NAME [ ":" literal { "," literal } | "(" [ literal { "," literal } ] ")" ]
path        = [ "var" ":" ] NAME { "." ( word | NUMBER ) }
condition   = conjunction | condition "or" conjunction
conjunction = negation | conjunction "and" negation
negation    = comparison | "not" negation
comparison  = value | value OPERATOR value
value       = path { "|" filter } | literal | "(" condition ")"
variable    = path [ ":" STRING ] { "|" filter }
loop source = path { "|" filter } | "range" "(" bound { "," bound } ")", at most three bounds
bound       = path | literal
```

The rules of blocks stand over any alphabet in which texts, comments and single directives can be
told (`Blocks`), so that they serve tokens and characters alike.
-/

namespace MailDialect.Grammar

/-! ## Operands -/

/-- Tokens of a literal. -/
inductive IsLiteral : List Token → Literal → Prop
  | string {value text : Text} {o : Nat} : IsLiteral [⟨.string value, text, o⟩] (.string value)
  | number {digits : Text} {o : Nat} : IsLiteral [⟨.number, digits, o⟩] (.number digits)
  | negative {minus digits : Text} {o p : Nat} :
    IsLiteral [⟨.punct .minus, minus, o⟩, ⟨.number, digits, p⟩] (.number ('-' :: digits))
  | yes {text : Text} {o : Nat} : IsLiteral [⟨.keyword .kwTrue, text, o⟩] (.bool true)
  | no {text : Text} {o : Nat} : IsLiteral [⟨.keyword .kwFalse, text, o⟩] (.bool false)

/-- One item or more, with commas between them. -/
inductive CommaList {α : Type} (Item : List Token → α → Prop) : List Token → List α → Prop
  | one {ts : List Token} {a : α} (h : Item ts a) : CommaList Item ts [a]
  | more {ts us : List Token} {comma : Token} {a : α} {as : List α} (h : Item ts a)
    (hcomma : comma.kind = .punct .comma) (hmore : CommaList Item us as) :
    CommaList Item (ts ++ comma :: us) (a :: as)

/-- Tokens of a filter. -/
inductive IsFilter : List Token → Filter → Prop
  | bare {name : Token} (hname : name.kind = .name) : IsFilter [name] ⟨name.text, .bare, []⟩
  | colon {name colon : Token} {ts : List Token} {args : List Literal} (hname : name.kind = .name)
    (hcolon : colon.kind = .punct .colon) (hargs : CommaList IsLiteral ts args) :
    IsFilter (name :: colon :: ts) ⟨name.text, .colon, args⟩
  | emptyCall {name opening closing : Token} (hname : name.kind = .name)
    (hopening : opening.kind = .punct .lparen) (hclosing : closing.kind = .punct .rparen) :
    IsFilter [name, opening, closing] ⟨name.text, .call, []⟩
  | call {name opening closing : Token} {ts : List Token} {args : List Literal} (hname : name.kind = .name)
    (hopening : opening.kind = .punct .lparen) (hargs : CommaList IsLiteral ts args)
    (hclosing : closing.kind = .punct .rparen) :
    IsFilter (name :: opening :: (ts ++ [closing])) ⟨name.text, .call, args⟩

/-- Tokens of filters, each after a bar. -/
inductive IsFilters : List Token → List Filter → Prop
  | nil : IsFilters [] []
  | cons {bar : Token} {ts us : List Token} {f : Filter} {fs : List Filter} (hbar : bar.kind = .punct .pipe)
    (hfilter : IsFilter ts f) (hmore : IsFilters us fs) : IsFilters (bar :: (ts ++ us)) (f :: fs)

/-- Tokens of properties, each a word or a number after a point. -/
inductive IsFields : List Token → List Text → Prop
  | nil : IsFields [] []
  | cons {point field : Token} {ts : List Token} {fields : List Text} (hpoint : point.kind = .punct .dot)
    (hfield : field.kind.isWord ∨ field.kind = .number) (hmore : IsFields ts fields) :
    IsFields (point :: field :: ts) (field.text :: fields)

/-- Tokens of a path, and whether it is marked. -/
inductive IsPath : List Token → Path → Bool → Prop
  | plain {base : Token} {ts : List Token} {fields : List Text} {scope : Scope} (hbase : base.kind = .name)
    (hfields : IsFields ts fields) : IsPath (base :: ts) ⟨base.text, fields, scope⟩ false
  | marked {marker colon base : Token} {ts : List Token} {fields : List Text} {scope : Scope}
    (hmarker : marker.kind = .name) (htext : marker.text = Dialect.marker)
    (hcolon : colon.kind = .punct .colon) (hbase : base.kind = .name) (hfields : IsFields ts fields) :
    IsPath (marker :: colon :: base :: ts) ⟨base.text, fields, scope⟩ true

/-! ## Conditions -/

/-- How tightly the parts of a condition hang together, loosest first. -/
inductive Level
  | condition
  | conjunction
  | negation
  | comparison
  | value

/-- Tokens of a condition, or of a part of one. Both connectives group to the left, `and` before `or`,
and `not` reaches over a comparison. -/
inductive IsExpr : Level → List Token → Expr → Prop
  | path {ts : List Token} {p : Path} {marked : Bool} (hpath : IsPath ts p marked) :
    IsExpr .value ts (.path p)
  | filtered {ts us : List Token} {p : Path} {marked : Bool} {fs : List Filter} (hpath : IsPath ts p marked)
    (hfilters : IsFilters us fs) (hne : fs ≠ []) : IsExpr .value (ts ++ us) (.filtered (.path p) fs)
  | literal {ts : List Token} {l : Literal} (hliteral : IsLiteral ts l) : IsExpr .value ts (.literal l)
  | group {opening closing : Token} {ts : List Token} {e : Expr} (hopening : opening.kind = .punct .lparen)
    (hinner : IsExpr .condition ts e) (hclosing : closing.kind = .punct .rparen) :
    IsExpr .value (opening :: (ts ++ [closing])) (.group e)
  | single {ts : List Token} {e : Expr} (h : IsExpr .value ts e) : IsExpr .comparison ts e
  | compare {operator : Token} {ts us : List Token} {op : Comparison} {a b : Expr} (hleft : IsExpr .value ts a)
    (hop : operator.kind = .comparison op) (hright : IsExpr .value us b) :
    IsExpr .comparison (ts ++ operator :: us) (.compare a op b)
  | affirmed {ts : List Token} {e : Expr} (h : IsExpr .comparison ts e) : IsExpr .negation ts e
  | not {word : Token} {ts : List Token} {e : Expr} (hword : word.kind = .keyword .kwNot)
    (hinner : IsExpr .negation ts e) : IsExpr .negation (word :: ts) (.not e)
  | conjunct {ts : List Token} {e : Expr} (h : IsExpr .negation ts e) : IsExpr .conjunction ts e
  | and {word : Token} {ts us : List Token} {a b : Expr} (hleft : IsExpr .conjunction ts a)
    (hword : word.kind = .keyword .kwAnd) (hright : IsExpr .negation us b) :
    IsExpr .conjunction (ts ++ word :: us) (.logical a .and b)
  | disjunct {ts : List Token} {e : Expr} (h : IsExpr .conjunction ts e) : IsExpr .condition ts e
  | or {word : Token} {ts us : List Token} {a b : Expr} (hleft : IsExpr .condition ts a)
    (hword : word.kind = .keyword .kwOr) (hright : IsExpr .conjunction us b) :
    IsExpr .condition (ts ++ word :: us) (.logical a .or b)

/-! ## Single directives -/

/-- Tokens of a default value, if there is one. -/
inductive IsDefault : List Token → Option Literal → Prop
  | none : IsDefault [] none
  | some {colon : Token} {value text : Text} {o : Nat} (hcolon : colon.kind = .punct .colon) :
    IsDefault [colon, ⟨.string value, text, o⟩] (some (.string value))

/-- Tokens of a bound of a numeric loop. -/
inductive IsBound : List Token → Bound → Prop
  | literal {ts : List Token} {l : Literal} (h : IsLiteral ts l) : IsBound ts (.literal l)
  | name {ts : List Token} {p : Path} {marked : Bool} (h : IsPath ts p marked) : IsBound ts (.name p.dotted)

/-- Tokens of what a loop runs over. -/
inductive IsLoopSource : List Token → LoopSource → Prop
  | collection {ts us : List Token} {p : Path} {marked : Bool} {fs : List Filter} (hpath : IsPath ts p marked)
    (hfilters : IsFilters us fs) : IsLoopSource (ts ++ us) (.collection p fs)
  | range {word opening closing : Token} {ts : List Token} {bounds : List Bound}
    (hword : word.kind = .keyword .kwRange) (hopening : opening.kind = .punct .lparen)
    (hbounds : CommaList IsBound ts bounds) (hfew : bounds.length ≤ 3)
    (hclosing : closing.kind = .punct .rparen) :
    IsLoopSource (word :: opening :: (ts ++ [closing])) (.range bounds)

/-- What a directive says by itself, blocks apart. -/
inductive Head
  | var (path : Path) (default : Option Literal) (filters : List Filter) (marked : Bool)
  | ifTag (condition : Expr)
  | elseifTag (condition : Expr)
  | elseTag
  | endifTag
  | forTag (name : Text) (source : LoopSource)
  | endforTag
  | unsupported (name : Text) (closing : Bool)

/-- The tokens between the delimiters of a directive. -/
inductive IsHead : Delim → List Token → Head → Prop
  | var {ts us vs : List Token} {p : Path} {marked : Bool} {default : Option Literal} {fs : List Filter}
    (hpath : IsPath ts p marked) (hdefault : IsDefault us default) (hfilters : IsFilters vs fs) :
    IsHead .var (ts ++ us ++ vs) (.var p default fs marked)
  | ifTag {word : Token} {ts : List Token} {c : Expr} (hword : word.kind = .keyword .kwIf)
    (hcondition : IsExpr .condition ts c) : IsHead .tag (word :: ts) (.ifTag c)
  | elseif {word : Token} {ts : List Token} {c : Expr} (hword : word.kind = .keyword .kwElseif)
    (hcondition : IsExpr .condition ts c) : IsHead .tag (word :: ts) (.elseifTag c)
  | elseIf {word second : Token} {ts : List Token} {c : Expr} (hword : word.kind = .keyword .kwElse)
    (hsecond : second.kind = .keyword .kwIf) (hcondition : IsExpr .condition ts c) :
    IsHead .tag (word :: second :: ts) (.elseifTag c)
  | elseTag {word : Token} (hword : word.kind = .keyword .kwElse) : IsHead .tag [word] .elseTag
  | endifTag {word : Token} (hword : word.kind = .keyword .kwEndif) : IsHead .tag [word] .endifTag
  | forTag {word name second : Token} {ts : List Token} {source : LoopSource}
    (hword : word.kind = .keyword .kwFor) (hname : name.kind = .name) (hsecond : second.kind = .keyword .kwIn)
    (hsource : IsLoopSource ts source) :
    IsHead .tag (word :: name :: second :: ts) (.forTag name.text source)
  | endforTag {word : Token} (hword : word.kind = .keyword .kwEndfor) : IsHead .tag [word] .endforTag
  | opening {name : Token} {args : List Token} (hname : name.kind = .name)
    (htag : name.text ∈ Dialect.unsupportedTags) (hargs : ∀ t ∈ args, t.kind ≠ .closer .tag) :
    IsHead .tag (name :: args) (.unsupported name.text false)
  | closing {name : Token} {tag : Text} {args : List Token} (hname : name.kind = .name)
    (htext : name.text = 'e' :: 'n' :: 'd' :: tag) (htag : tag ∈ Dialect.unsupportedTags)
    (hargs : ∀ t ∈ args, t.kind ≠ .closer .tag) :
    IsHead .tag (name :: args) (.unsupported tag true)

/-! ## Tokens before the filters -/

/-- The tokens before the first bar. -/
def beforeFilters (ts : List Token) : List Token := ts.takeWhile fun t => t.kind != .punct .pipe

section
variable {ts us vs : List Token} {p : Path} {marked : Bool} {default : Option Literal} {fs : List Filter}

/-- A path is made of names, numbers and points, and has a colon only behind a marker. -/
theorem kinds_of_isPath (h : IsPath ts p marked) : ∀ t ∈ ts,
    t.kind.isWord ∨ t.kind = .number ∨ t.kind = .punct .dot ∨ t.kind = .punct .colon ∧ marked = true := by
  have hname : ∀ {t : Token}, t.kind = .name → t.kind.isWord := by intro t ht; rw [ht]; rfl
  have hfields : ∀ {ts fields}, IsFields ts fields → ∀ t ∈ ts,
      t.kind.isWord ∨ t.kind = .number ∨ t.kind = .punct .dot ∨ t.kind = .punct .colon ∧ marked = true := by
    intro ts fields h
    induction h with
    | nil => simp
    | cons hpoint hfield _ ih =>
      exact List.forall_mem_cons.2 ⟨.inr (.inr (.inl hpoint)), List.forall_mem_cons.2 ⟨hfield.imp_right .inl, ih⟩⟩
  cases h with
  | plain hbase h => exact List.forall_mem_cons.2 ⟨.inl (hname hbase), hfields h⟩
  | marked hmarker _ hcolon hbase h =>
    refine List.forall_mem_cons.2 ⟨.inl (hname hmarker), List.forall_mem_cons.2 ⟨.inr (.inr (.inr ⟨hcolon, rfl⟩)), ?_⟩⟩
    exact List.forall_mem_cons.2 ⟨.inl (hname hbase), hfields h⟩

theorem kind_ne_pipe_of_isPath (h : IsPath ts p marked) : ∀ t ∈ ts, t.kind ≠ .punct .pipe := by
  intro t ht hpipe
  simpa [hpipe, Token.Kind.isWord] using kinds_of_isPath h t ht

theorem beforeFilters_append (hts : ∀ t ∈ ts, t.kind ≠ .punct .pipe) (hfilters : IsFilters us fs) :
    beforeFilters (ts ++ us) = ts := by
  refine (takeWhile_append_of_ends (by simpa using hts) us ?_).1
  cases hfilters with
  | nil => simp
  | cons hbar => simp [hbar]

/-- Up to the first bar a variable holds its path and its default. -/
theorem beforeFilters_var (hpath : IsPath ts p marked) (hdefault : IsDefault us default)
    (hfilters : IsFilters vs fs) : beforeFilters (ts ++ us ++ vs) = ts ++ us := by
  have hus : ∀ t ∈ us, t.kind ≠ .punct .pipe := by
    cases hdefault with
    | none => simp
    | some hcolon => simp [hcolon]
  exact beforeFilters_append (List.forall_mem_append.2 ⟨kind_ne_pipe_of_isPath hpath, hus⟩) hfilters

end

/-! ## Blocks -/

/-- How texts, comments and single directives are spelled over an alphabet. -/
structure Spelling (α : Type) where
  text : List α → Text → Prop
  comment : List α → Text → Prop
  directive : Delim → List α → Head → Span → Prop

/-- The parts of a template that have rules of their own. -/
inductive Phrase
  | node (n : Node)
  | nodes (ns : List Node)
  | alternative (a : Alternative)

/-- The rules of blocks. -/
inductive Blocks {α : Type} (S : Spelling α) : List α → Phrase → Prop
  | nil : Blocks S [] (.nodes [])
  | cons {a b : List α} {n : Node} {ns : List Node} (hfirst : Blocks S a (.node n))
    (hmore : Blocks S b (.nodes ns)) : Blocks S (a ++ b) (.nodes (n :: ns))
  | text {a : List α} {raw : Text} (h : S.text a raw) : Blocks S a (.node (.text raw))
  | comment {a : List α} {raw : Text} (h : S.comment a raw) : Blocks S a (.node (.comment raw))
  | var {a : List α} {p : Path} {default : Option Literal} {fs : List Filter} {marked : Bool} {span : Span}
    (h : S.directive .var a (.var p default fs marked) span) :
    Blocks S a (.node (.var ⟨p, default, fs, marked, span⟩))
  | unsupported {a : List α} {name : Text} {closing : Bool} {span : Span}
    (h : S.directive .tag a (.unsupported name closing) span) :
    Blocks S a (.node (.unsupported ⟨name, closing, span⟩))
  | ifBlock {a b r : List α} {c : Expr} {tag : Span} {body : List Node} {more : Alternative}
    (htag : S.directive .tag a (.ifTag c) tag) (hbody : Blocks S b (.nodes body))
    (hmore : Blocks S r (.alternative more)) :
    Blocks S (a ++ (b ++ r)) (.node (.ifBlock c tag body more))
  | forBlock {a b r : List α} {name : Text} {source : LoopSource} {tag close : Span} {body : List Node}
    (htag : S.directive .tag a (.forTag name source) tag) (hbody : Blocks S b (.nodes body))
    (hclose : S.directive .tag r .endforTag close) :
    Blocks S (a ++ (b ++ r)) (.node (.forBlock name source tag body))
  | endif {a : List α} {close : Span} (hclose : S.directive .tag a .endifTag close) :
    Blocks S a (.alternative .endif)
  | otherwise {a b r : List α} {tag close : Span} {body : List Node} (htag : S.directive .tag a .elseTag tag)
    (hbody : Blocks S b (.nodes body)) (hclose : S.directive .tag r .endifTag close) :
    Blocks S (a ++ (b ++ r)) (.alternative (.otherwise body))
  | elseif {a b r : List α} {c : Expr} {tag : Span} {body : List Node} {more : Alternative}
    (htag : S.directive .tag a (.elseifTag c) tag) (hbody : Blocks S b (.nodes body))
    (hmore : Blocks S r (.alternative more)) :
    Blocks S (a ++ (b ++ r)) (.alternative (.elseif c tag body more))

/-- Tokens spell a text by themselves, and a directive between its delimiters, which mark its span in
the source. -/
def tokens (source : Text) : Spelling Token where
  text ts raw := ∃ o, ts = [⟨.text, raw, o⟩]
  comment ts raw := ∃ opening body closing, ts = opening :: (body ++ [closing]) ∧
    opening.kind = .opener .comment ∧ closing.kind = .closer .comment ∧
    (body = [] ∨ ∃ t, body = [t] ∧ t.kind = .text) ∧
    raw = Text.slice source opening.offset closing.stop
  directive d ts head span := ∃ opening inner closing, ts = opening :: (inner ++ [closing]) ∧
    opening.kind = .opener d ∧ closing.kind = .closer d ∧ IsHead d inner head ∧
    span = ⟨Text.slice source opening.offset closing.stop, opening.offset⟩

/-- The template that tokens of `source` form. -/
def IsTemplate (source : Text) (ts : List Token) (t : Template) : Prop :=
  Blocks (tokens source) ts (.nodes t)

end MailDialect.Grammar
