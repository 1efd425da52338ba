import MailDialect.Failure
import MailDialect.Proofs.Reading
import MailDialect.Template.Printer
import MailDialect.Template.Reader.Block

/-!
# Reading tokens elsewhere

The same tokens may stand further on in a longer source, and be read under another namespace. Every
reader then takes and leaves the same tokens. What it reads has other scopes and later places, and
nothing else is different; where it fails, it fails with the same error, at a later place. Main
statement: `follows_nodes`.
-/

namespace MailDialect

/-! ## Later places -/

/-- A token `k` bytes further on. -/
def Token.shift (k : Nat) (t : Token) : Token := { t with offset := t.offset + k }

theorem Token.shift_mk (k : Nat) (kind : Token.Kind) (text : Text) (o : Nat) :
    Token.shift k ⟨kind, text, o⟩ = ⟨kind, text, o + k⟩ := rfl

theorem Token.isWordLike_shift (k : Nat) (t : Token) : (t.shift k).isWordLike = t.isWordLike := rfl

def ScanError.shift (k : Nat) (e : ScanError) : ScanError := { e with offset := e.offset + k }

def GrammarError.shift (k : Nat) (e : GrammarError) : GrammarError := { e with offset := e.offset + k }

def Span.shift (k : Nat) (s : Span) : Span := { s with offset := s.offset + k }

def Diagnostic.shift (k : Nat) (d : Diagnostic) : Diagnostic := { d with offset := d.offset + k }

/-- A failure with every place `k` bytes further on. -/
def Failure.shift (k : Nat) : Failure → Failure
  | .scan e => .scan (e.shift k)
  | .grammar e => .grammar (e.shift k)
  | .unconvertible ds => .unconvertible (ds.map (Diagnostic.shift k))
  | .render reason => .render reason
  | .invalidNamespace ns => .invalidNamespace ns

mutual

def Node.shift (k : Nat) : Node → Node
  | .text raw => .text raw
  | .comment raw => .comment raw
  | .var v => .var { v with span := v.span.shift k }
  | .ifBlock c tag body more => .ifBlock c (tag.shift k) (Template.shift k body) (more.shift k)
  | .forBlock name source tag body => .forBlock name source (tag.shift k) (Template.shift k body)
  | .unsupported u => .unsupported { u with span := u.span.shift k }

def Alternative.shift (k : Nat) : Alternative → Alternative
  | .endif => .endif
  | .otherwise body => .otherwise (Template.shift k body)
  | .elseif c tag body more => .elseif c (tag.shift k) (Template.shift k body) (more.shift k)

/-- A template with every directive `k` bytes further on. -/
def Template.shift (k : Nat) : Template → Template
  | [] => []
  | n :: t => n.shift k :: Template.shift k t

end

section
variable (k : Nat)

theorem LoopSource.printTag_shift (ns name : Text) (s : LoopSource) (tag : Span) :
    s.printTag ns name (tag.shift k) = s.printTag ns name tag := by
  cases s <;> rfl

mutual

theorem Node.print_shift (ns : Text) : ∀ n : Node, (n.shift k).print ns = n.print ns
  | .text _ => rfl
  | .comment _ => rfl
  | .var _ => rfl
  | .unsupported _ => rfl
  | .ifBlock c tag body more => by
    simp only [Node.shift, Node.print, Template.print_shift ns body, Alternative.print_shift ns more]
    rfl
  | .forBlock name source tag body => by
    simp only [Node.shift, Node.print, Template.print_shift ns body, LoopSource.printTag_shift]

theorem Alternative.print_shift (ns : Text) : ∀ a : Alternative, (a.shift k).print ns = a.print ns
  | .endif => rfl
  | .otherwise body => by simp only [Alternative.shift, Alternative.print, Template.print_shift ns body]
  | .elseif c tag body more => by
    simp only [Alternative.shift, Alternative.print, Template.print_shift ns body, Alternative.print_shift ns more]
    rfl

/-- Places do not show in what is written. -/
theorem Template.print_shift (ns : Text) :
    ∀ t : Template, Template.print ns (Template.shift k t) = Template.print ns t
  | [] => rfl
  | n :: t => by simp only [Template.shift, Template.print, Node.print_shift ns n, Template.print_shift ns t]

end

theorem Span.filterDiagnostics_shift (tag : Span) (fs : List Filter) :
    (tag.shift k).filterDiagnostics fs = (tag.filterDiagnostics fs).map (Diagnostic.shift k) := by
  simp [Span.filterDiagnostics, Span.shift, Diagnostic.shift]

mutual

theorem Node.diagnostics_shift : ∀ n : Node, (n.shift k).diagnostics = n.diagnostics.map (Diagnostic.shift k)
  | .text _ => rfl
  | .comment _ => rfl
  | .var v => Span.filterDiagnostics_shift k v.span v.filters
  | .unsupported u => by
    simp only [Node.shift, Node.diagnostics, Unsupported.diagnostics]
    split <;> rfl
  | .ifBlock c tag body more => by
    simp only [Node.shift, Node.diagnostics, Span.filterDiagnostics_shift, Template.diagnostics_shift body,
      Alternative.diagnostics_shift more, List.map_append]
  | .forBlock name source tag body => by
    simp only [Node.shift, Node.diagnostics, Span.filterDiagnostics_shift, Template.diagnostics_shift body,
      List.map_append]

theorem Alternative.diagnostics_shift :
    ∀ a : Alternative, (a.shift k).diagnostics = a.diagnostics.map (Diagnostic.shift k)
  | .endif => rfl
  | .otherwise body => by simp only [Alternative.shift, Alternative.diagnostics, Template.diagnostics_shift body]
  | .elseif c tag body more => by
    simp only [Alternative.shift, Alternative.diagnostics, Span.filterDiagnostics_shift,
      Template.diagnostics_shift body, Alternative.diagnostics_shift more, List.map_append]

/-- What is reported moves with the directives. -/
theorem Template.diagnostics_shift :
    ∀ t : Template, Template.diagnostics (Template.shift k t) = (Template.diagnostics t).map (Diagnostic.shift k)
  | [] => rfl
  | n :: t => by
    simp only [Template.shift, Template.diagnostics, Node.diagnostics_shift n, Template.diagnostics_shift t,
      List.map_append]

end

end

/-! ## Sources with text before them -/

theorem Text.dropBytes_append_add (before : Text) (n : Nat) (source : Text) :
    Text.dropBytes (n + Text.byteSize before) (before ++ source) = Text.dropBytes n source := by
  induction before with
  | nil => rfl
  | cons c before ih =>
    have hc : 0 < c.utf8Size := c.utf8Size_pos
    obtain ⟨m, hm⟩ : ∃ m, n + Text.byteSize (c :: before) = m + 1 :=
      ⟨n + (c.utf8Size + Text.byteSize before) - 1, by rw [Text.byteSize_cons]; omega⟩
    have hrest : m + 1 - c.utf8Size = n + Text.byteSize before := by
      rw [← hm, Text.byteSize_cons]
      omega
    rw [hm, List.cons_append, Text.dropBytes, hrest, ih]

/-- A piece of a source is the same piece further on when text comes before the source. -/
theorem Text.slice_append_add (before source : Text) (start stop : Nat) :
    Text.slice (before ++ source) (start + Text.byteSize before) (stop + Text.byteSize before) =
      Text.slice source start stop := by
  rw [Text.slice, Text.dropBytes_append_add, Nat.add_sub_add_right, Text.slice]

namespace Reader

/-- The second place is the first in a source with `k` bytes more before it, whatever the namespace. -/
structure Env.Behind (k : Nat) (env env' : Env) : Prop where
  source : ∃ before, env'.source = before ++ env.source ∧ Text.byteSize before = k
  bound : env'.bound = env.bound

section
variable {k : Nat} {env env' : Env} (h : env.Behind k env')
include h

theorem Env.Behind.enterLoop (name : Text) : (env.enterLoop name).Behind k (env'.enterLoop name) :=
  ⟨h.source, congrArg (name :: ·) h.bound⟩

theorem Env.Behind.span (offset : Nat) (close : Token) :
    env'.span (offset + k) (close.shift k) = (env.span offset close).shift k := by
  obtain ⟨before, hsource, rfl⟩ := h.source
  have hstop : (close.shift (Text.byteSize before)).stop = close.stop + Text.byteSize before := by
    simp only [Token.stop, Token.shift]
    omega
  simp only [Env.span, Span.shift, hsource, hstop, Text.slice_append_add]

theorem Env.Behind.unexpected (ts : List Token) (expected : Expectation) :
    env'.unexpected (ts.map (Token.shift k)) expected = (env.unexpected ts expected).shift k := by
  cases ts with
  | nil =>
    obtain ⟨before, hsource, rfl⟩ := h.source
    simp [Env.unexpected, GrammarError.shift, hsource, Nat.add_comm]
  | cons t ts => rfl

end

/-! ## Tokens that do not fit -/

section
variable {k : Nat} {ts : List Token} {kind kind' kind'' : Token.Kind}

theorem map_shift_eq_cons {text : Text} {o : Nat} {rest : List Token}
    (h : ts.map (Token.shift k) = ⟨kind, text, o⟩ :: rest) :
    ∃ o' rest', ts = ⟨kind, text, o'⟩ :: rest' ∧ rest'.map (Token.shift k) = rest := by
  obtain ⟨⟨kind', text', o'⟩, rest', rfl, hhead, hrest⟩ := List.map_eq_cons_iff.1 h
  cases hhead
  exact ⟨o', rest', rfl, hrest⟩

/-- Tokens that do not start in some way do not start so elsewhere. -/
theorem not_starts (h : ∀ text o rest, ts = ⟨kind, text, o⟩ :: rest → False) :
    ∀ text o rest, ts.map (Token.shift k) = ⟨kind, text, o⟩ :: rest → False := by
  intro text o rest heq
  obtain ⟨o', rest', rfl, -⟩ := map_shift_eq_cons heq
  exact h _ _ _ rfl

theorem not_starts_two
    (h : ∀ text o text' o' rest, ts = ⟨kind, text, o⟩ :: ⟨kind', text', o'⟩ :: rest → False) :
    ∀ text o text' o' rest, ts.map (Token.shift k) = ⟨kind, text, o⟩ :: ⟨kind', text', o'⟩ :: rest → False := by
  intro text o text' o' rest heq
  obtain ⟨_, rest', rfl, hrest⟩ := map_shift_eq_cons heq
  exact not_starts (fun text' o' rest' hrest' => h _ _ _ _ _ (congrArg _ hrest')) _ _ _ hrest

theorem not_starts_three
    (h : ∀ text o text' o' text'' o'' rest,
      ts = ⟨kind, text, o⟩ :: ⟨kind', text', o'⟩ :: ⟨kind'', text'', o''⟩ :: rest → False) :
    ∀ text o text' o' text'' o'' rest, ts.map (Token.shift k) =
      ⟨kind, text, o⟩ :: ⟨kind', text', o'⟩ :: ⟨kind'', text'', o''⟩ :: rest → False := by
  intro text o text' o' text'' o'' rest heq
  obtain ⟨_, rest', rfl, hrest⟩ := map_shift_eq_cons heq
  exact not_starts_two (fun _ _ _ _ _ hrest' => h _ _ _ _ _ _ _ (congrArg _ hrest')) _ _ _ _ _ hrest

theorem peek_map_shift : peek (ts.map (Token.shift k)) = peek ts := by
  cases ts <;> rfl

end

/-! ## Outcomes elsewhere -/

/-- The second reader reads `f` of what the first reads and leaves the same tokens `k` bytes further
on, or both fail in the same way. -/
inductive Follows (k : Nat) {α β : Type} {m n : Nat} (f : α → β) : Outcome α m → Outcome β n → Prop
  | ok {a : α} {rest : List Token} {below : rest.length < m} {below' : (rest.map (Token.shift k)).length < n} :
    Follows k f (.ok ⟨a, rest, below⟩) (.ok ⟨f a, rest.map (Token.shift k), below'⟩)
  | error {e : GrammarError} : Follows k f (.error e) (.error (e.shift k))

section
variable {k : Nat} {α β γ δ : Type} {m n p q : Nat} {f : α → β} {g : γ → δ}

theorem follows_ok {r : Reading α m} {r' : Reading β n} (hvalue : r'.value = f r.value)
    (hrest : r'.rest = r.rest.map (Token.shift k)) : Follows k f (.ok r) (.ok r') := by
  obtain ⟨a, rest, below⟩ := r
  obtain ⟨_, _, below'⟩ := r'
  cases hvalue
  cases hrest
  exact .ok

theorem follows_error {e e' : GrammarError} (h : e' = e.shift k) :
    Follows k f (.error e : Outcome α m) (.error e' : Outcome β n) := h ▸ .error

/-- Readers in a row follow readers in a row. -/
theorem Follows.bind {o : Outcome α m} {o' : Outcome β n} {r : Reading α m → Outcome γ p}
    {r' : Reading β n → Outcome δ q} (h : Follows k f o o')
    (hr : ∀ a rest below below', Follows k g (r ⟨a, rest, below⟩) (r' ⟨f a, rest.map (Token.shift k), below'⟩)) :
    Follows k g (o >>= r) (o' >>= r') := by
  cases h with
  | ok => exact hr _ _ _ _
  | error => exact .error

end

/-! ## Operands -/

theorem follows_commaSeparated {k : Nat} {α β : Type} {f : α → β} {item : (ts : List Token) → Outcome α ts.length}
    {item' : (ts : List Token) → Outcome β ts.length}
    (hitem : ∀ ts, Follows k f (item ts) (item' (ts.map (Token.shift k)))) (ts : List Token) :
    Follows k (List.map f) (commaSeparated item ts) (commaSeparated item' (ts.map (Token.shift k))) := by
  rw [commaSeparated, commaSeparated]
  refine (hitem ts).bind fun a rest below below' => ?_
  dsimp only
  split
  · rename_i text o more
    have hshort : more.length + 1 < ts.length := below
    exact (follows_commaSeparated hitem more).bind fun as rest' _ _ => follows_ok rfl rfl
  · rename_i hcomma
    split
    · rename_i heq
      exact (not_starts hcomma _ _ _ heq).elim
    · exact follows_ok rfl rfl
termination_by ts.length

section
variable {k : Nat} {env env' : Env} (h : env.Behind k env')
include h

theorem follows_expect (kind : Token.Kind) (expected : Expectation) (ts : List Token) :
    Follows k (Token.shift k) (expect env kind expected ts) (expect env' kind expected (ts.map (Token.shift k))) := by
  cases ts with
  | nil => exact follows_error (h.unexpected [] expected)
  | cons t ts =>
    rw [List.map_cons, expect, expect]
    by_cases hkind : t.kind = kind
    · have hshift : (t.shift k).kind = kind := hkind
      rw [if_pos hkind, if_pos hshift]
      exact follows_ok rfl rfl
    · have hshift : (t.shift k).kind ≠ kind := hkind
      rw [if_neg hkind, if_neg hshift]
      exact follows_error (h.unexpected (t :: ts) expected)

theorem follows_literal (ts : List Token) :
    Follows k id (literal env ts) (literal env' (ts.map (Token.shift k))) := by
  fun_cases literal env ts with
  | case1 => exact follows_ok rfl rfl
  | case2 => exact follows_ok rfl rfl
  | case3 => exact follows_ok rfl rfl
  | case4 => exact follows_ok rfl rfl
  | case5 => exact follows_ok rfl rfl
  | case6 ts hstring hnumber htrue hfalse hminus =>
    rw [literal.eq_6 env ts hstring hnumber htrue hfalse hminus,
      literal.eq_6 env' _ (fun value => not_starts (hstring value)) (not_starts hnumber) (not_starts htrue)
        (not_starts hfalse) (not_starts_two hminus)]
    exact follows_error (h.unexpected ts .literal)

theorem follows_literals (ts : List Token) :
    Follows k id (literals env ts) (literals env' (ts.map (Token.shift k))) := by
  have hall := follows_commaSeparated (follows_literal h) ts
  rwa [List.map_id_fun] at hall

theorem follows_filter (ts : List Token) :
    Follows k id (filter env ts) (filter env' (ts.map (Token.shift k))) := by
  unfold filter
  refine (follows_expect h .name .filterName ts).bind fun name rest _ _ => ?_
  dsimp only
  split
  · exact (follows_literals h _).bind fun args _ _ _ => follows_ok rfl rfl
  · exact follows_ok rfl rfl
  · rename_i text o rest hempty _ _
    split
    · rename_i heq
      cases heq
    · rename_i heq
      exact (not_starts hempty _ _ _ (List.cons.inj heq).2).elim
    · rename_i heq
      obtain ⟨-, rfl⟩ := List.cons.inj heq
      refine (follows_literals h rest).bind fun args rest _ _ => ?_
      exact (follows_expect h _ _ rest).bind fun close _ _ _ => follows_ok rfl rfl
    · rename_i hparen
      exact (hparen _ _ _ rfl).elim
  · rename_i hcolon hempty hparen
    split
    · rename_i heq
      exact (not_starts hcolon _ _ _ heq).elim
    · rename_i heq
      exact (not_starts_two hempty _ _ _ _ _ heq).elim
    · rename_i heq
      exact (not_starts hparen _ _ _ heq).elim
    · exact follows_ok rfl rfl

theorem follows_filters (ts : List Token) :
    Follows k id (filters env ts) (filters env' (ts.map (Token.shift k))) := by
  induction ts using filters.induct with
  | case1 text o more ih =>
    rw [filters, List.map_cons, Token.shift, filters]
    refine (follows_filter h more).bind fun first rest below _ => ?_
    exact (ih ⟨first, rest, below⟩).bind fun fs _ _ _ => follows_ok rfl rfl
  | case2 ts hbar =>
    rw [filters.eq_2 env ts hbar, filters.eq_2 env' _ (not_starts hbar)]
    exact follows_ok rfl rfl

omit h in
theorem marker_map_shift (ts : List Token) :
    marker (ts.map (Token.shift k)) = ((marker ts).1, (marker ts).2.map (Token.shift k)) := by
  fun_cases marker ts with
  | case1 text o colon place t rest hmark =>
    simp only [marker, List.map_cons, Token.shift_mk, Token.isWordLike_shift, hmark, if_true]
  | case2 text o colon place t rest hmark =>
    simp only [marker, List.map_cons, Token.shift_mk, Token.isWordLike_shift, hmark, Bool.false_eq_true,
      if_false]
  | case3 ts hname =>
    have hshift : ∀ text o colon place t rest, ts.map (Token.shift k) =
        ⟨.name, text, o⟩ :: ⟨.punct .colon, colon, place⟩ :: t :: rest → False := by
      intro text o colon place t rest heq
      obtain ⟨_, _, rfl, hafter⟩ := map_shift_eq_cons heq
      obtain ⟨_, _, rfl, hrest⟩ := map_shift_eq_cons hafter
      obtain ⟨t', _, rfl, -, -⟩ := List.map_eq_cons_iff.1 hrest
      exact hname _ _ _ _ _ _ rfl
    rw [marker.eq_2 _ hshift]

theorem follows_fields (ts : List Token) :
    Follows k id (fields env ts) (fields env' (ts.map (Token.shift k))) := by
  induction ts using fields.induct with
  | case1 text o t more hword ih =>
    have hshift : ((t.shift k).isWordLike || (t.shift k).kind == .number) = true := hword
    rw [List.map_cons, List.map_cons, Token.shift, fields, fields, if_pos hword, if_pos hshift]
    exact ih.bind fun fs _ _ _ => follows_ok rfl rfl
  | case2 text o t more hword =>
    have hshift : ¬((t.shift k).isWordLike || (t.shift k).kind == .number) = true := hword
    rw [List.map_cons, List.map_cons, Token.shift, fields, fields, if_neg hword, if_neg hshift]
    exact follows_error (h.unexpected (t :: more) .property)
  | case3 text o => exact follows_error (h.unexpected [] .property)
  | case4 ts hpoint hlast =>
    have hdot : ∀ text o rest, ts = ⟨.punct .dot, text, o⟩ :: rest → False := by
      rintro text o (_ | ⟨t, rest⟩) heq
      · exact hlast _ _ heq
      · exact hpoint _ _ _ _ heq
    rw [fields.eq_3 env ts hpoint hlast, fields.eq_3 env' _ (fun text o t rest => not_starts hdot text o (t :: rest))
      fun text o => not_starts hdot text o []]
    exact follows_ok rfl rfl

/-- A path has the scope of its base name there. -/
theorem follows_path (expected : Expectation) (ts : List Token) :
    Follows k (fun p => (p.1.rescope env'.resolve, p.2)) (path env expected ts)
      (path env' expected (ts.map (Token.shift k))) := by
  have hmarker := marker_map_shift (k := k) ts
  have hbase : Follows k (Token.shift k) (expect env .name expected (marker ts).2)
      (expect env' .name expected (marker (ts.map (Token.shift k))).2) := by
    rw [hmarker]
    exact follows_expect h .name expected (marker ts).2
  refine hbase.bind fun base rest _ _ => ?_
  refine (follows_fields h rest).bind fun fs _ _ _ => follows_ok ?_ rfl
  simp only [Reading.map_parts, Reading.widen_parts, Reading.andMaybe_parts, hmarker]
  rfl

theorem follows_bound (ts : List Token) :
    Follows k id (bound env ts) (bound env' (ts.map (Token.shift k))) := by
  unfold bound
  rw [peek_map_shift]
  split
  · exact (follows_path h _ ts).bind fun p _ _ _ => follows_ok rfl rfl
  · exact (follows_literal h ts).bind fun l _ _ _ => follows_ok rfl rfl

theorem follows_bounds (ts : List Token) :
    Follows k id (bounds env ts) (bounds env' (ts.map (Token.shift k))) := by
  unfold bounds
  rw [peek_map_shift]
  split
  · exact follows_error (h.unexpected ts _)
  · have hall := follows_commaSeparated (follows_bound h) ts
    rw [List.map_id_fun] at hall
    refine hall.bind fun args rest _ _ => ?_
    dsimp only [id]
    split
    · exact follows_ok rfl rfl
    · refine follows_error ?_
      rw [h.unexpected]
      rfl

/-! ## Conditions -/

omit h in
theorem rescope_applyFilters (f : Text → Scope) (e : Expr) (fs : List Filter) :
    applyFilters (e.rescope f) fs = (applyFilters e fs).rescope f := by
  unfold applyFilters
  split <;> rfl

omit h in
theorem follows_comparison {ts : List Token}
    (hleft : Follows k (Expr.rescope env'.resolve) (value env ts) (value env' (ts.map (Token.shift k))))
    (hright : ∀ (left : Reading Expr ts.length) op text o more, left.rest = ⟨.comparison op, text, o⟩ :: more →
      Follows k (Expr.rescope env'.resolve) (value env more) (value env' (more.map (Token.shift k)))) :
    Follows k (Expr.rescope env'.resolve) (comparison env ts) (comparison env' (ts.map (Token.shift k))) := by
  rw [comparison, comparison]
  refine hleft.bind fun a rest below _ => ?_
  dsimp only
  split
  · exact (hright ⟨a, _, below⟩ _ _ _ _ rfl).bind fun b _ _ _ => follows_ok rfl rfl
  · rename_i hop
    split
    · rename_i heq
      exact (not_starts (hop _) _ _ _ heq).elim
    · exact follows_ok rfl rfl

theorem follows_operand {ts : List Token} (hparen : ∀ text o rest, ts = ⟨.punct .lparen, text, o⟩ :: rest → False) :
    Follows k (Expr.rescope env'.resolve) (value env ts) (value env' (ts.map (Token.shift k))) := by
  rw [value.eq_2 env ts hparen, value.eq_2 env' _ (not_starts hparen), peek_map_shift]
  split
  · refine (follows_path h .operand ts).bind fun p rest _ _ => ?_
    exact (follows_filters h rest).bind fun fs _ _ _ => follows_ok (rescope_applyFilters _ (.path p.1) fs) rfl
  · split
    · exact (follows_literal h ts).bind fun l _ _ _ => follows_ok rfl rfl
    · exact follows_error (h.unexpected ts .operand)

/-- A condition has the scopes of its base names there, and so for its parts. -/
theorem follows_conditions :
    (∀ ts, Follows k (Expr.rescope env'.resolve) (condition env ts) (condition env' (ts.map (Token.shift k)))) ∧
    (∀ left ts, Follows k (Expr.rescope env'.resolve) (disjuncts env left ts)
      (disjuncts env' (left.rescope env'.resolve) (ts.map (Token.shift k)))) ∧
    (∀ ts, Follows k (Expr.rescope env'.resolve) (conjunction env ts) (conjunction env' (ts.map (Token.shift k)))) ∧
    (∀ left ts, Follows k (Expr.rescope env'.resolve) (conjuncts env left ts)
      (conjuncts env' (left.rescope env'.resolve) (ts.map (Token.shift k)))) ∧
    (∀ ts, Follows k (Expr.rescope env'.resolve) (negation env ts) (negation env' (ts.map (Token.shift k)))) ∧
    (∀ ts, Follows k (Expr.rescope env'.resolve) (comparison env ts) (comparison env' (ts.map (Token.shift k)))) ∧
    ∀ ts, Follows k (Expr.rescope env'.resolve) (value env ts) (value env' (ts.map (Token.shift k))) := by
  apply condition.mutual_induct
  case case1 =>
    intro ts hfirst hmore
    rw [condition, condition]
    refine hfirst.bind fun a rest below _ => ?_
    exact (hmore ⟨a, rest, below⟩).bind fun e _ _ _ => follows_ok rfl rfl
  case case2 =>
    intro left text o ts hright hmore
    rw [List.map_cons, Token.shift_mk, disjuncts, disjuncts]
    refine hright.bind fun a rest below _ => ?_
    exact (hmore ⟨a, rest, below⟩).bind fun e _ _ _ => follows_ok rfl rfl
  case case3 =>
    intro left ts hword
    rw [disjuncts.eq_2 env left ts hword, disjuncts.eq_2 env' _ _ (not_starts hword)]
    exact follows_ok rfl rfl
  case case4 =>
    intro ts hfirst hmore
    rw [conjunction, conjunction]
    refine hfirst.bind fun a rest below _ => ?_
    exact (hmore ⟨a, rest, below⟩).bind fun e _ _ _ => follows_ok rfl rfl
  case case5 =>
    intro left text o ts hright hmore
    rw [List.map_cons, Token.shift_mk, conjuncts, conjuncts]
    refine hright.bind fun a rest below _ => ?_
    exact (hmore ⟨a, rest, below⟩).bind fun e _ _ _ => follows_ok rfl rfl
  case case6 =>
    intro left ts hword
    rw [conjuncts.eq_2 env left ts hword, conjuncts.eq_2 env' _ _ (not_starts hword)]
    exact follows_ok rfl rfl
  case case7 =>
    intro text o ts hinner
    rw [List.map_cons, Token.shift_mk, negation, negation]
    exact hinner.bind fun e _ _ _ => follows_ok rfl rfl
  case case8 =>
    intro ts hword hinner
    rw [negation.eq_2 env ts hword, negation.eq_2 env' _ (not_starts hword)]
    exact hinner
  case case9 => exact fun ts hleft hright => follows_comparison hleft hright
  case case10 =>
    intro text o ts hinner
    rw [List.map_cons, Token.shift_mk, value, value]
    refine hinner.bind fun e rest _ _ => ?_
    exact (follows_expect h _ _ rest).bind fun close _ _ _ => follows_ok rfl rfl
  case case11 => exact fun ts hparen _ => follows_operand h hparen
  case case12 => exact fun ts hparen _ _ => follows_operand h hparen
  case case13 => exact fun ts hparen _ _ => follows_operand h hparen

/-! ## Single directives -/

omit h in
theorem skipText_map_shift (ts : List Token) :
    skipText (ts.map (Token.shift k)) = (skipText ts).map (Token.shift k) := by
  fun_cases skipText ts with
  | case1 => rfl
  | case2 ts htext => rw [skipText.eq_2 _ (not_starts htext)]

theorem follows_comment (offset : Nat) (ts : List Token) :
    Follows k (Span.shift k) (comment env offset ts) (comment env' (offset + k) (ts.map (Token.shift k))) := by
  have hclose : Follows k (Token.shift k) (closer env .comment (skipText ts))
      (closer env' .comment (skipText (ts.map (Token.shift k)))) := by
    rw [skipText_map_shift]
    exact follows_expect h _ _ (skipText ts)
  exact hclose.bind fun close _ _ _ => follows_ok (h.span offset close) rfl

theorem follows_defaultValue (ts : List Token) :
    Follows k id (defaultValue env ts) (defaultValue env' (ts.map (Token.shift k))) := by
  fun_cases defaultValue env ts with
  | case1 => exact follows_ok rfl rfl
  | case2 text o rest hstring =>
    rw [List.map_cons, Token.shift_mk, defaultValue.eq_2 env _ _ rest hstring,
      defaultValue.eq_2 env' _ _ _ fun value => not_starts (hstring value)]
    exact follows_error (h.unexpected rest .defaultValue)
  | case3 ts hstring hcolon =>
    have hshift := not_starts (k := k) hcolon
    rw [defaultValue.eq_3 env ts hstring hcolon,
      defaultValue.eq_3 env' _ (fun text o _ _ _ _ => hshift text o _) hshift]
    exact follows_ok rfl rfl

theorem follows_var (offset : Nat) (ts : List Token) :
    Follows k (fun v => { v.rescope env'.resolve with span := v.span.shift k }) (var env offset ts)
      (var env' (offset + k) (ts.map (Token.shift k))) := by
  refine (follows_path h .variableName ts).bind fun p rest _ _ => ?_
  refine (follows_defaultValue h rest).bind fun value rest _ _ => ?_
  refine (follows_filters h rest).bind fun fs rest _ _ => ?_
  refine (follows_expect h _ _ rest).bind fun close _ _ _ => follows_ok ?_ rfl
  simp only [Reading.map_parts, Reading.andMaybe_parts, Reading.andThen_parts, h.span]
  rfl

omit h in
theorem skipArguments_map_shift (ts : List Token) :
    skipArguments (ts.map (Token.shift k)) = (skipArguments ts).map (Token.shift k) :=
  List.dropWhile_map

theorem follows_closeAfterArguments (ts : List Token) :
    Follows k (Token.shift k) (closeAfterArguments env ts) (closeAfterArguments env' (ts.map (Token.shift k))) := by
  have hclose : Follows k (Token.shift k) (closer env .tag (skipArguments ts))
      (closer env' .tag (skipArguments (ts.map (Token.shift k)))) := by
    rw [skipArguments_map_shift]
    exact follows_expect h _ _ (skipArguments ts)
  exact hclose.bind fun close _ _ _ => follows_ok rfl rfl

theorem follows_unsupported (offset : Nat) (ts : List Token) :
    Follows k (fun u => { u with span := u.span.shift k }) (unsupported env offset ts)
      (unsupported env' (offset + k) (ts.map (Token.shift k))) := by
  refine (follows_expect h .name .tagName ts).bind fun name rest _ _ => ?_
  dsimp only [Token.shift]
  split
  · exact follows_error (h.unexpected ts .knownTag)
  · refine (follows_closeAfterArguments h rest).bind fun close _ _ _ => follows_ok ?_ rfl
    simp only [Reading.map_parts, Reading.andThen_parts, h.span]

theorem follows_loopSource (ts : List Token) :
    Follows k (LoopSource.rescope env'.resolve) (loopSource env ts) (loopSource env' (ts.map (Token.shift k))) := by
  fun_cases loopSource env ts with
  | case1 text o rest =>
    rw [List.map_cons, Token.shift_mk, loopSource, loopSource]
    refine (follows_expect h _ _ rest).bind fun opening rest _ _ => ?_
    refine (follows_bounds h rest).bind fun args rest _ _ => ?_
    exact (follows_expect h _ _ rest).bind fun close _ _ _ => follows_ok rfl rfl
  | case2 ts hrange =>
    rw [loopSource.eq_2 env ts hrange, loopSource.eq_2 env' _ (not_starts hrange)]
    refine (follows_path h .collection ts).bind fun p rest _ _ => ?_
    exact (follows_filters h rest).bind fun fs _ _ _ => follows_ok rfl rfl

/-! ## Ends of blocks -/

theorem Env.Behind.unexpectedTag (ts : List Token) (expected : Expectation) :
    env'.unexpectedTag (ts.map (Token.shift k)) expected = (env.unexpectedTag ts expected).shift k := by
  fun_cases Env.unexpectedTag env ts expected with
  | case1 => rfl
  | case2 ts htag =>
    have hshift : ∀ text o t rest, ts.map (Token.shift k) = ⟨.opener .tag, text, o⟩ :: t :: rest → False := by
      intro text o t rest heq
      obtain ⟨_, _, rfl, hrest⟩ := map_shift_eq_cons heq
      obtain ⟨t', _, rfl, -, -⟩ := List.map_eq_cons_iff.1 hrest
      exact htag _ _ _ _ rfl
    rw [Env.unexpectedTag.eq_2 env' _ _ hshift]
    exact h.unexpected ts expected

theorem follows_endifAfterElse (ts : List Token) :
    Follows k id (endifAfterElse env ts) (endifAfterElse env' (ts.map (Token.shift k))) := by
  fun_cases endifAfterElse env ts with
  | case1 text o text' o' rest => exact (follows_expect h _ _ rest).bind fun close _ _ _ => follows_ok rfl rfl
  | case2 => exact follows_error (h.unexpectedTag _ _)
  | case3 => exact follows_error (h.unexpectedTag _ _)
  | case4 => exact follows_error (h.unexpected [] _)
  | case5 ts hendif helseif helse hnil =>
    rw [endifAfterElse.eq_5 env ts hendif helseif helse hnil, endifAfterElse.eq_5 env' _ (not_starts_two hendif)
      (not_starts_two helseif) (not_starts_two helse) fun heq => hnil (List.map_eq_nil_iff.1 heq)]
    exact follows_error (h.unexpectedTag ts .clause)

theorem follows_endfor (ts : List Token) :
    Follows k id (endfor env ts) (endfor env' (ts.map (Token.shift k))) := by
  fun_cases endfor env ts with
  | case1 text o text' o' rest => exact (follows_expect h _ _ rest).bind fun close _ _ _ => follows_ok rfl rfl
  | case2 ts hend =>
    rw [endfor.eq_2 env ts hend, endfor.eq_2 env' _ (not_starts_two hend)]
    exact follows_error (h.unexpectedTag ts .endfor)

end

/-! ## Blocks -/

/-- A node as it is read `k` bytes further on, with the scopes it has there. -/
def Env.carryNode (k : Nat) (env : Env) (n : Node) : Node := (n.rescope (.lexical env.ns) env.bound).shift k

def Env.carryNodes (k : Nat) (env : Env) (t : List Node) : List Node :=
  Template.shift k (Template.rescope (.lexical env.ns) env.bound t)

def Env.carryAlternative (k : Nat) (env : Env) (a : Alternative) : Alternative :=
  (a.rescope (.lexical env.ns) env.bound).shift k

/-- As `Follows`, for a reader that may find no node. -/
inductive FollowsMaybe (k : Nat) {m n : Nat} (f : Node → Node) :
    Except GrammarError (Option (Reading Node m)) → Except GrammarError (Option (Reading Node n)) → Prop
  | none : FollowsMaybe k f (.ok none) (.ok none)
  | some {a : Node} {rest : List Token} {below : rest.length < m}
    {below' : (rest.map (Token.shift k)).length < n} :
    FollowsMaybe k f (.ok (some ⟨a, rest, below⟩)) (.ok (some ⟨f a, rest.map (Token.shift k), below'⟩))
  | error {e : GrammarError} : FollowsMaybe k f (.error e) (.error (e.shift k))

section
variable {k : Nat} {f : Node → Node}

theorem followsMaybe_some {m n : Nat} {r : Reading Node m} {r' : Reading Node n} (hvalue : r'.value = f r.value)
    (hrest : r'.rest = r.rest.map (Token.shift k)) : FollowsMaybe k f (.ok (some r)) (.ok (some r')) := by
  obtain ⟨a, rest, below⟩ := r
  obtain ⟨_, _, below'⟩ := r'
  cases hvalue
  cases hrest
  exact .some

theorem followsMaybe_error {m n : Nat} {e e' : GrammarError} (h : e' = e.shift k) :
    FollowsMaybe k f (.error e : Except GrammarError (Option (Reading Node m)))
      (.error e' : Except GrammarError (Option (Reading Node n))) := h ▸ .error

/-- A node found by a reader of one kind. -/
theorem Follows.maybe {α β : Type} {m n p q : Nat} {g : α → β} {o : Outcome α m} {o' : Outcome β n}
    {r : Reading α m → Reading Node p} {r' : Reading β n → Reading Node q} (h : Follows k g o o')
    (hr : ∀ a rest below below', (r' ⟨g a, rest.map (Token.shift k), below'⟩).value = f (r ⟨a, rest, below⟩).value ∧
      (r' ⟨g a, rest.map (Token.shift k), below'⟩).rest = (r ⟨a, rest, below⟩).rest.map (Token.shift k)) :
    FollowsMaybe k f (do let x ← o; return some (r x)) (do let x ← o'; return some (r' x)) := by
  cases h with
  | error => exact .error
  | ok => exact followsMaybe_some (hr _ _ _ _).1 (hr _ _ _ _).2

end

/-- Wherever else the tokens stand, reading nodes from them follows. -/
def NodesFollow (k : Nat) (env : Env) (ts : List Token) : Prop :=
  ∀ env', env.Behind k env' → Follows k (env'.carryNodes k) (nodes env ts) (nodes env' (ts.map (Token.shift k)))

def NodeFollows (k : Nat) (env : Env) (ts : List Token) : Prop :=
  ∀ env', env.Behind k env' → FollowsMaybe k (env'.carryNode k) (node env ts) (node env' (ts.map (Token.shift k)))

def ForFollows (k : Nat) (env : Env) (offset : Nat) (ts : List Token) : Prop :=
  ∀ env', env.Behind k env' →
    Follows k (env'.carryNode k) (forBlock env offset ts) (forBlock env' (offset + k) (ts.map (Token.shift k)))

def IfFollows (k : Nat) (env : Env) (offset : Nat) (ts : List Token) : Prop :=
  ∀ env', env.Behind k env' →
    Follows k (env'.carryNode k) (ifBlock env offset ts) (ifBlock env' (offset + k) (ts.map (Token.shift k)))

def AlternativeFollows (k : Nat) (env : Env) (ts : List Token) : Prop :=
  ∀ env', env.Behind k env' →
    Follows k (env'.carryAlternative k) (alternative env ts) (alternative env' (ts.map (Token.shift k)))

def ElseifFollows (k : Nat) (env : Env) (offset : Nat) (ts : List Token) : Prop :=
  ∀ env', env.Behind k env' →
    Follows k (env'.carryAlternative k) (elseif env offset ts) (elseif env' (offset + k) (ts.map (Token.shift k)))

section
variable {k : Nat} {env : Env} {offset : Nat} {ts : List Token}

theorem nodesFollow_step (hfirst : NodeFollows k env ts)
    (hmore : ∀ first : Reading Node ts.length, NodesFollow k env first.rest) : NodesFollow k env ts := by
  intro env' h
  rw [nodes, nodes]
  generalize hleft : node env ts = found
  generalize hright : node env' (ts.map (Token.shift k)) = found'
  have hnode := hfirst env' h
  rw [hleft, hright] at hnode
  cases hnode with
  | none => exact follows_ok rfl rfl
  | error => exact .error
  | @some a rest below below' =>
    exact (hmore ⟨a, rest, below⟩ env' h).bind fun more _ _ _ => follows_ok rfl rfl

/-- Both tags with a condition: the condition, the closer, the body and what follows it. -/
theorem follows_clause {α : Type} {env' : Env} (h : env.Behind k env')
    (make : Expr → Span → List Node → Alternative → α) {carry : α → α}
    (hcarry : ∀ c tag body more, make (c.rescope env'.resolve) (Span.shift k tag) (env'.carryNodes k body)
      (env'.carryAlternative k more) = carry (make c tag body more))
    (hbody : ∀ (c : Reading Expr ts.length) (close : Reading Token c.rest.length), NodesFollow k env close.rest)
    (hmore : ∀ (c : Reading Expr ts.length) (close : Reading Token c.rest.length)
      (body : Reading (List Node) (close.rest.length + 1)), AlternativeFollows k env body.rest) :
    Follows k carry
      (do
        let c ← condition env ts
        let close ← closer env .tag c.rest
        let body ← nodes env close.rest
        let more ← alternative env body.rest
        return (c.andThen (close.andMaybe (body.andThen more))).map
          (make c.value (env.span offset close.value) body.value))
      (do
        let c ← condition env' (ts.map (Token.shift k))
        let close ← closer env' .tag c.rest
        let body ← nodes env' close.rest
        let more ← alternative env' body.rest
        return (c.andThen (close.andMaybe (body.andThen more))).map
          (make c.value (env'.span (offset + k) close.value) body.value)) := by
  refine ((follows_conditions h).1 ts).bind fun c rest below _ => ?_
  refine (follows_expect h _ _ rest).bind fun close rest' below' _ => ?_
  refine (hbody ⟨c, rest, below⟩ ⟨close, rest', below'⟩ env' h).bind fun body rest'' below'' _ => ?_
  refine (hmore ⟨c, rest, below⟩ ⟨close, rest', below'⟩ ⟨body, rest'', below''⟩ env' h).bind fun more _ _ _ => ?_
  refine follows_ok ?_ rfl
  simp only [Reading.map_parts, Reading.andThen_parts, Reading.andMaybe_parts, h.span, hcarry]

theorem forFollows_step
    (hbody : ∀ (name : Reading Token ts.length) (kwIn : Reading Token name.rest.length)
      (source : Reading LoopSource kwIn.rest.length) (close : Reading Token source.rest.length),
      NodesFollow k (env.enterLoop name.value.text) close.rest) : ForFollows k env offset ts := by
  intro env' h
  rw [forBlock, forBlock]
  refine (follows_expect h _ _ ts).bind fun name rest below _ => ?_
  refine (follows_expect h _ _ rest).bind fun word rest' below' _ => ?_
  refine (follows_loopSource h rest').bind fun source rest'' below'' _ => ?_
  refine (follows_expect h _ _ rest'').bind fun close rest''' below''' _ => ?_
  refine (hbody ⟨name, rest, below⟩ ⟨word, rest', below'⟩ ⟨source, rest'', below''⟩ ⟨close, rest''', below'''⟩ _
    (h.enterLoop name.text)).bind fun body rest _ _ => ?_
  refine (follows_endfor h rest).bind fun _ _ _ _ => follows_ok ?_ rfl
  simp only [Reading.map_parts, h.span]
  rfl

theorem nodeFollows_tag (text : Text) (hif : ∀ text o rest, ts = ⟨.keyword .kwIf, text, o⟩ :: rest → False)
    (hfor : ∀ text o rest, ts = ⟨.keyword .kwFor, text, o⟩ :: rest → False) :
    NodeFollows k env (⟨.opener .tag, text, offset⟩ :: ts) := by
  intro env' h
  rw [List.map_cons, Token.shift_mk, node.eq_7 env text offset ts hif hfor,
    node.eq_7 env' text _ _ (not_starts hif) (not_starts hfor), peek_map_shift]
  split
  · exact (follows_unsupported h offset ts).maybe fun _ _ _ _ => ⟨rfl, rfl⟩
  · split
    · exact .none
    · exact followsMaybe_error (h.unexpected ts .tagName)

theorem follow_blocks (k : Nat) :
    (∀ env ts, NodesFollow k env ts) ∧ (∀ env ts, NodeFollows k env ts) ∧
    (∀ env offset ts, ForFollows k env offset ts) ∧ (∀ env offset ts, IfFollows k env offset ts) ∧
    (∀ env ts, AlternativeFollows k env ts) ∧ ∀ env offset ts, ElseifFollows k env offset ts := by
  apply nodes.mutual_induct
  -- lists of nodes, then the blocks behind their first tags
  case case1 => exact fun env ts hfirst hmore => nodesFollow_step hfirst hmore
  case case12 => exact fun env offset ts hbody => forFollows_step hbody
  case case13 =>
    intro env offset ts hbody hmore env' h
    rw [ifBlock, ifBlock]
    exact follows_clause h Node.ifBlock (fun _ _ _ _ => rfl) hbody hmore
  case case20 =>
    intro env offset ts hbody hmore env' h
    rw [elseif, elseif]
    exact follows_clause h Alternative.elseif (fun _ _ _ _ => rfl) hbody hmore
  -- single nodes
  case case2 =>
    intro env env' h
    rw [List.map_nil, node, node]
    exact .none
  case case3 =>
    intro env raw o ts env' h
    rw [List.map_cons, Token.shift_mk, node, node]
    exact followsMaybe_some rfl rfl
  case case4 =>
    intro env text o ts env' h
    rw [List.map_cons, Token.shift_mk, node, node]
    exact (follows_comment h o ts).maybe fun _ _ _ _ => ⟨rfl, rfl⟩
  case case5 =>
    intro env text o ts env' h
    rw [List.map_cons, Token.shift_mk, node, node]
    exact (follows_var h o ts).maybe fun _ _ _ _ => ⟨rfl, rfl⟩
  case case6 =>
    intro env text o text' o' ts hblock env' h
    rw [List.map_cons, List.map_cons, Token.shift_mk, Token.shift_mk, node, node]
    exact (hblock env' h).maybe fun _ _ _ _ => ⟨rfl, rfl⟩
  case case7 =>
    intro env text o text' o' ts hblock env' h
    rw [List.map_cons, List.map_cons, Token.shift_mk, Token.shift_mk, node, node]
    exact (hblock env' h).maybe fun _ _ _ _ => ⟨rfl, rfl⟩
  case case8 => exact fun env text o ts hif hfor _ => nodeFollows_tag text hif hfor
  case case9 => exact fun env text o ts hif hfor _ _ => nodeFollows_tag text hif hfor
  case case10 => exact fun env text o ts hif hfor _ _ => nodeFollows_tag text hif hfor
  case case11 =>
    intro env ts hnil htext hcomment hvar hif hfor htag env' h
    rw [node.eq_8 env ts hnil htext hcomment hvar hif hfor htag,
      node.eq_8 env' _ (fun heq => hnil (List.map_eq_nil_iff.1 heq)) (not_starts htext) (not_starts hcomment)
        (not_starts hvar) (not_starts_two hif) (not_starts_two hfor) (not_starts htag)]
    exact followsMaybe_error (h.unexpected ts .textOrDirective)
  -- what follows a branch
  case case14 =>
    intro env text o text' o' ts hclause env' h
    rw [List.map_cons, List.map_cons, Token.shift_mk, Token.shift_mk, alternative, alternative]
    exact (hclause env' h).bind fun _ _ _ _ => follows_ok rfl rfl
  case case15 =>
    intro env text o text' o' text'' o'' ts hclause env' h
    rw [List.map_cons, List.map_cons, List.map_cons, Token.shift_mk, Token.shift_mk, Token.shift_mk, alternative,
      alternative]
    exact (hclause env' h).bind fun _ _ _ _ => follows_ok rfl rfl
  case case16 =>
    intro env text o text' o' ts hif hbody env' h
    rw [List.map_cons, List.map_cons, Token.shift_mk, Token.shift_mk, alternative.eq_3 env _ _ _ _ ts hif,
      alternative.eq_3 env' _ _ _ _ _ (not_starts hif)]
    refine (follows_expect h _ _ ts).bind fun close rest below _ => ?_
    refine (hbody ⟨close, rest, below⟩ env' h).bind fun body rest' _ _ => ?_
    exact (follows_endifAfterElse h rest').bind fun _ _ _ _ => follows_ok rfl rfl
  case case17 =>
    intro env text o text' o' ts env' h
    rw [List.map_cons, List.map_cons, Token.shift_mk, Token.shift_mk, alternative, alternative]
    exact (follows_expect h _ _ ts).bind fun _ _ _ _ => follows_ok rfl rfl
  case case18 =>
    intro env env' h
    rw [List.map_nil, alternative, alternative]
    exact follows_error (h.unexpected [] .endif)
  case case19 =>
    intro env ts helseif helseIf helse hendif hnil env' h
    rw [alternative.eq_6 env ts helseif helseIf helse hendif hnil,
      alternative.eq_6 env' _ (not_starts_two helseif) (not_starts_three helseIf) (not_starts_two helse)
        (not_starts_two hendif) fun heq => hnil (List.map_eq_nil_iff.1 heq)]
    exact follows_error (h.unexpectedTag ts .clause)

end

/-- **Tokens are read elsewhere as they are read here**, with the scopes and places of that place. -/
theorem follows_nodes {k : Nat} {env env' : Env} (h : env.Behind k env') (ts : List Token) :
    Follows k (env'.carryNodes k) (nodes env ts) (nodes env' (ts.map (Token.shift k))) :=
  (follow_blocks k).1 env ts env' h

end Reader

end MailDialect
