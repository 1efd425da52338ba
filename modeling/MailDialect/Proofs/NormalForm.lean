import MailDialect.Proofs.Pieces
import MailDialect.Template.Printer

/-!
# Templates in normal form

The template that a written template stands for: the namespace before every parameter, and neither
markers nor defaults left, in every directive that is written anew. A directive that is passed on as
it was stays as it is. Main statements: writing a template in normal form gives what writing the
template gives (`Template.print_norm`), with the same diagnostics (`Template.diagnostics_norm`).
-/

namespace MailDialect

/-! ## Normal forms -/

/-- A path with the namespace before it, if its base is a parameter. -/
def Path.qualify (ns : Text) (p : Path) : Path :=
  match p.scope with
  | .param => ⟨ns, p.segments, .namespaced⟩
  | .loopLocal => p
  | .namespaced => p

/-- A condition with the namespace before its parameters. -/
def Expr.qualify (ns : Text) : Expr → Expr
  | .path p => .path (p.qualify ns)
  | .literal l => .literal l
  | .compare a op b => .compare (a.qualify ns) op (b.qualify ns)
  | .logical a op b => .logical (a.qualify ns) op (b.qualify ns)
  | .not e => .not (e.qualify ns)
  | .group e => .group (e.qualify ns)
  | .filtered e fs => .filtered (e.qualify ns) fs

/-- The filter that a default turns into; an empty default is dropped. -/
def Variable.defaultFilters (v : Variable) : List Filter :=
  match v.default with
  | none => []
  | some (.string []) => []
  | some value => [⟨Dialect.defaultFilter, .colon, [value]⟩]

/-- Whether a variable is passed on as it was written. -/
def Variable.isKept (v : Variable) : Bool :=
  v.filters.any Filter.isUnsupported || !v.isForeign

def Variable.norm (ns : Text) (v : Variable) : Variable :=
  if v.isKept then v
  else ⟨v.path.qualify ns, none, v.defaultFilters ++ v.filters, false, ⟨v.print ns, v.span.offset⟩⟩

def Expr.norm (ns : Text) (c : Expr) : Expr :=
  if c.filters.any Filter.isUnsupported then c else c.qualify ns

def LoopSource.norm (ns : Text) : LoopSource → LoopSource
  | .range bounds => .range bounds
  | .collection p fs => .collection (if fs.any Filter.isUnsupported then p else p.qualify ns) fs

mutual

/-- The node that a written node stands for. -/
def Node.norm (ns : Text) : Node → Node
  | .text raw => .text raw
  | .comment raw => .comment raw
  | .var v => .var (v.norm ns)
  | .ifBlock c tag body more =>
    .ifBlock (c.norm ns) ⟨c.printTag ns ['i', 'f'] tag, tag.offset⟩ (Template.norm ns body) (more.norm ns)
  | .forBlock name source tag body =>
    .forBlock name (source.norm ns) ⟨source.printTag ns name tag, tag.offset⟩ (Template.norm ns body)
  | .unsupported u => .unsupported u

def Alternative.norm (ns : Text) : Alternative → Alternative
  | .endif => .endif
  | .otherwise body => .otherwise (Template.norm ns body)
  | .elseif c tag body more =>
    .elseif (c.norm ns) ⟨c.printTag ns ['e', 'l', 'i', 'f'] tag, tag.offset⟩ (Template.norm ns body) (more.norm ns)

/-- The template that a written template stands for. -/
def Template.norm (ns : Text) : Template → Template
  | [] => []
  | n :: t => n.norm ns :: Template.norm ns t

end

/-! ## Paths and filters -/

theorem Path.print_eq (ns : Text) (p : Path) : p.print ns = (p.qualify ns).dotted := by
  obtain ⟨base, fields, scope⟩ := p
  cases scope <;> simp [Path.print, Path.qualify, Path.dotted, Path.segments, List.intercalate_cons_cons]

theorem Path.print_of_scope_ne {ns : Text} {p : Path} (h : p.scope ≠ .param) : p.print ns = p.dotted := by
  unfold Path.print
  split
  · rename_i hs; exact (h hs).elim
  · rfl
  · rfl

/-- The namespace itself is never taken for a parameter. -/
theorem Scoping.lexical_ns_ne (ns : Text) (bound : List Text) : Scoping.lexical ns bound ns ≠ .param := by
  unfold Scoping.lexical Reader.Env.resolve
  split
  · simp
  · simp

section
variable {ns : Text} {f : Text → Scope} (hns : f ns ≠ .param)
include hns

theorem Path.scope_qualify_ne {p : Path} (h : p.rescope f = p) : ((p.qualify ns).rescope f).scope ≠ .param := by
  obtain ⟨base, fields, scope⟩ := p
  have hscope : f base = scope := congrArg Path.scope h
  cases scope with
  | param => exact hns
  | loopLocal | namespaced => simp [Path.qualify, Path.rescope, hscope]

theorem Path.print_qualify {p : Path} (h : p.rescope f = p) : ((p.qualify ns).rescope f).print ns = p.print ns := by
  rw [Path.print_of_scope_ne (Path.scope_qualify_ne hns h), Path.print_eq]
  rfl

theorem Expr.print_qualify {e : Expr} (h : e.rescope f = e) : ((e.qualify ns).rescope f).print ns = e.print ns := by
  induction e <;> simp_all [Expr.qualify, Expr.rescope, Expr.print, Path.print_qualify hns]

end

theorem Expr.filters_qualify (ns : Text) (e : Expr) : (e.qualify ns).filters = e.filters := by
  induction e <;> simp_all [Expr.qualify, Expr.filters]

theorem Expr.filters_rescope (f : Text → Scope) (e : Expr) : (e.rescope f).filters = e.filters := by
  induction e <;> simp_all [Expr.rescope, Expr.filters]

theorem Expr.filters_norm (ns : Text) (e : Expr) : (e.norm ns).filters = e.filters := by
  unfold Expr.norm
  split
  · rfl
  · exact e.filters_qualify ns

theorem LoopSource.filters_norm (ns : Text) (s : LoopSource) : (s.norm ns).filters = s.filters := by
  cases s <;> rfl

theorem LoopSource.filters_rescope (f : Text → Scope) (s : LoopSource) : (s.rescope f).filters = s.filters := by
  cases s <;> rfl

/-- The filter of a default is supported. -/
theorem Variable.any_defaultFilters (v : Variable) : v.defaultFilters.any Filter.isUnsupported = false := by
  unfold Variable.defaultFilters
  split
  · rfl
  · rfl
  · rfl

/-! ## Directives -/

section
variable {ns : Text} {f : Text → Scope} (hns : f ns ≠ .param)

theorem Variable.print_of_isKept {v : Variable} (h : v.isKept) : v.print ns = v.span.raw := if_pos h

include hns in
theorem Variable.print_norm {v : Variable} (h : v.rescope f = v) : ((v.norm ns).rescope f).print ns = v.print ns := by
  by_cases hkept : v.isKept
  · rw [Variable.norm, if_pos hkept, h]
  · have hpath : v.path.rescope f = v.path := congrArg Variable.path h
    have hscope := Path.scope_qualify_ne hns hpath
    rw [Variable.norm, if_neg hkept]
    refine Variable.print_of_isKept ?_
    simp [Variable.isKept, Variable.isForeign, Variable.rescope, hscope]

include hns in
theorem Expr.printTag_norm {c : Expr} (h : c.rescope f = c) (word : Text) (tag : Span) (o : Nat) :
    ((c.norm ns).rescope f).printTag ns word ⟨c.printTag ns word tag, o⟩ = c.printTag ns word tag := by
  by_cases hkept : c.filters.any Filter.isUnsupported
  · rw [Expr.norm, if_pos hkept, h, Expr.printTag, if_pos hkept]
  · rw [Expr.norm, if_neg hkept, Expr.printTag, Expr.filters_rescope, Expr.filters_qualify, if_neg hkept,
      Expr.print_qualify hns h, Expr.printTag, if_neg hkept]

include hns in
theorem LoopSource.printTag_norm {s : LoopSource} (h : s.rescope f = s) (name : Text) (tag : Span) (o : Nat) :
    ((s.norm ns).rescope f).printTag ns name ⟨s.printTag ns name tag, o⟩ = s.printTag ns name tag := by
  cases s with
  | range bounds => rfl
  | collection p fs =>
    have hpath : p.rescope f = p := by simpa [LoopSource.rescope] using h
    by_cases hkept : fs.any Filter.isUnsupported
    · simp only [LoopSource.norm, LoopSource.rescope, LoopSource.printTag, hkept, if_true]
    · simp only [LoopSource.norm, LoopSource.rescope, LoopSource.printTag, hkept, if_false, Bool.false_eq_true,
        Path.print_qualify hns hpath]

end

/-! ## Templates -/

mutual

theorem Node.print_norm (ns : Text) (bound : List Text) : ∀ n : Node, n.rescope (.lexical ns) bound = n →
    ((n.norm ns).rescope (.lexical ns) bound).print ns = n.print ns
  | .text _, _ => rfl
  | .comment _, _ => rfl
  | .unsupported _, _ => rfl
  | .var v, h => by
    rw [Node.rescope, Node.var.injEq] at h
    exact Variable.print_norm (Scoping.lexical_ns_ne ns bound) h
  | .ifBlock c tag body more, h => by
    simp only [Node.rescope, Node.ifBlock.injEq, true_and] at h
    simp only [Node.norm, Node.rescope, Node.print, Expr.printTag_norm (Scoping.lexical_ns_ne ns bound) h.1,
      Template.print_norm ns bound body h.2.1, Alternative.print_norm ns bound more h.2.2]
  | .forBlock name source tag body, h => by
    simp only [Node.rescope, Node.forBlock.injEq, true_and] at h
    simp only [Node.norm, Node.rescope, Node.print, LoopSource.printTag_norm (Scoping.lexical_ns_ne ns bound) h.1,
      Template.print_norm ns (name :: bound) body h.2]

theorem Alternative.print_norm (ns : Text) (bound : List Text) : ∀ a : Alternative,
    a.rescope (.lexical ns) bound = a → ((a.norm ns).rescope (.lexical ns) bound).print ns = a.print ns
  | .endif, _ => rfl
  | .otherwise body, h => by
    simp only [Alternative.rescope, Alternative.otherwise.injEq] at h
    simp only [Alternative.norm, Alternative.rescope, Alternative.print, Template.print_norm ns bound body h]
  | .elseif c tag body more, h => by
    simp only [Alternative.rescope, Alternative.elseif.injEq, true_and] at h
    simp only [Alternative.norm, Alternative.rescope, Alternative.print,
      Expr.printTag_norm (Scoping.lexical_ns_ne ns bound) h.1, Template.print_norm ns bound body h.2.1,
      Alternative.print_norm ns bound more h.2.2]

/-- **Writing the normal form of a template gives what writing the template gives.** -/
theorem Template.print_norm (ns : Text) (bound : List Text) : ∀ t : Template,
    Template.rescope (.lexical ns) bound t = t →
      Template.print ns (Template.rescope (.lexical ns) bound (Template.norm ns t)) = Template.print ns t
  | [], _ => rfl
  | n :: t, h => by
    simp only [Template.rescope, List.cons.injEq] at h
    simp only [Template.norm, Template.rescope, Template.print, Node.print_norm ns bound n h.1,
      Template.print_norm ns bound t h.2]

end

/-- What a diagnostic says, its place apart. -/
def Diagnostic.content (d : Diagnostic) : String × Text := (d.message, d.snippet)

theorem Span.filterDiagnostics_eq_nil {span : Span} {fs : List Filter} (h : fs.any Filter.isUnsupported = false) :
    span.filterDiagnostics fs = [] := by
  simp only [List.any_eq_false, Bool.not_eq_true] at h
  simp [Span.filterDiagnostics, List.filter_eq_nil_iff.2 (by simpa using h)]

/-- A directive with unsupported filters is quoted as it stands, so only such a one has to be kept. -/
theorem Span.diagnostics_of_kept {raw : Text} {tag : Span} (o : Nat) {fs : List Filter}
    (h : fs.any Filter.isUnsupported → raw = tag.raw) :
    (Span.filterDiagnostics ⟨raw, o⟩ fs).map Diagnostic.content = (tag.filterDiagnostics fs).map Diagnostic.content := by
  by_cases hkept : fs.any Filter.isUnsupported
  · simp [h hkept, Span.filterDiagnostics, Diagnostic.content, Diagnostic.message, Function.comp_def]
  · have hnone : fs.any Filter.isUnsupported = false := by simpa using hkept
    rw [Span.filterDiagnostics_eq_nil hnone, Span.filterDiagnostics_eq_nil hnone]

theorem Expr.diagnostics_norm {ns : Text} (f : Text → Scope) (c : Expr) (word : Text) (tag : Span) (o : Nat) :
    (Span.filterDiagnostics ⟨c.printTag ns word tag, o⟩ ((c.norm ns).rescope f).filters).map Diagnostic.content =
      (tag.filterDiagnostics c.filters).map Diagnostic.content := by
  rw [Expr.filters_rescope, Expr.filters_norm]
  exact Span.diagnostics_of_kept o fun hkept => if_pos hkept

theorem LoopSource.diagnostics_norm {ns : Text} (f : Text → Scope) (s : LoopSource) (name : Text) (tag : Span)
    (o : Nat) :
    (Span.filterDiagnostics ⟨s.printTag ns name tag, o⟩ ((s.norm ns).rescope f).filters).map Diagnostic.content =
      (tag.filterDiagnostics s.filters).map Diagnostic.content := by
  rw [LoopSource.filters_rescope, LoopSource.filters_norm]
  cases s with
  | range bounds => rfl
  | collection p fs => exact Span.diagnostics_of_kept o fun hkept => if_pos hkept

theorem Variable.any_filters_norm (ns : Text) (v : Variable) :
    (v.norm ns).filters.any Filter.isUnsupported = v.filters.any Filter.isUnsupported := by
  by_cases hkept : v.isKept
  · rw [Variable.norm, if_pos hkept]
  · rw [Variable.norm, if_neg hkept, List.any_append, v.any_defaultFilters, Bool.false_or]

theorem Variable.diagnostics_norm {ns : Text} (v : Variable) :
    ((v.norm ns).span.filterDiagnostics (v.norm ns).filters) = v.span.filterDiagnostics v.filters := by
  by_cases hkept : v.isKept
  · rw [Variable.norm, if_pos hkept]
  · have hfilters : v.filters.any Filter.isUnsupported = false := by
      simp only [Variable.isKept, Bool.or_eq_true, not_or] at hkept
      simpa using hkept.1
    have hnorm : (v.norm ns).filters.any Filter.isUnsupported = false := by rw [v.any_filters_norm, hfilters]
    rw [Span.filterDiagnostics_eq_nil hfilters, Span.filterDiagnostics_eq_nil hnorm]

mutual

theorem Node.diagnostics_norm (ns : Text) (g : Scoping) (bound : List Text) : ∀ n : Node,
    ((n.norm ns).rescope g bound).diagnostics.map Diagnostic.content = n.diagnostics.map Diagnostic.content
  | .text _ => rfl
  | .comment _ => rfl
  | .unsupported _ => rfl
  | .var v => congrArg (List.map Diagnostic.content) v.diagnostics_norm
  | .ifBlock c tag body more => by
    simp only [Node.norm, Node.rescope, Node.diagnostics, List.map_append, Expr.diagnostics_norm,
      Template.diagnostics_norm ns g bound body, Alternative.diagnostics_norm ns g bound more]
  | .forBlock name source tag body => by
    simp only [Node.norm, Node.rescope, Node.diagnostics, List.map_append, LoopSource.diagnostics_norm,
      Template.diagnostics_norm ns g (name :: bound) body]

theorem Alternative.diagnostics_norm (ns : Text) (g : Scoping) (bound : List Text) : ∀ a : Alternative,
    ((a.norm ns).rescope g bound).diagnostics.map Diagnostic.content = a.diagnostics.map Diagnostic.content
  | .endif => rfl
  | .otherwise body => by
    simp only [Alternative.norm, Alternative.rescope, Alternative.diagnostics,
      Template.diagnostics_norm ns g bound body]
  | .elseif c tag body more => by
    simp only [Alternative.norm, Alternative.rescope, Alternative.diagnostics, List.map_append,
      Expr.diagnostics_norm, Template.diagnostics_norm ns g bound body, Alternative.diagnostics_norm ns g bound more]

/-- **The normal form of a template has the diagnostics of the template**, places apart. -/
theorem Template.diagnostics_norm (ns : Text) (g : Scoping) (bound : List Text) : ∀ t : Template,
    (Template.diagnostics (Template.rescope g bound (Template.norm ns t))).map Diagnostic.content =
      (Template.diagnostics t).map Diagnostic.content
  | [] => rfl
  | n :: t => by
    simp only [Template.norm, Template.rescope, Template.diagnostics, List.map_append,
      Node.diagnostics_norm ns g bound n, Template.diagnostics_norm ns g bound t]

end

/-! ## Places make no difference -/

theorem Span.diagnostics_unplaced (s : Span) (fs : List Filter) :
    (s.unplaced.filterDiagnostics fs).map Diagnostic.content = (s.filterDiagnostics fs).map Diagnostic.content :=
  Span.diagnostics_of_kept 0 fun _ => rfl

mutual

theorem Node.print_unplaced (ns : Text) : ∀ n : Node, n.unplaced.print ns = n.print ns
  | .text _ => rfl
  | .comment _ => rfl
  | .var _ => rfl
  | .unsupported _ => rfl
  | .ifBlock c tag body more => by
    simp only [Node.unplaced, Node.print, Template.print_unplaced, Alternative.print_unplaced]; rfl
  | .forBlock name source tag body => by
    simp only [Node.unplaced, Node.print, Template.print_unplaced]; rfl

theorem Alternative.print_unplaced (ns : Text) : ∀ a : Alternative, a.unplaced.print ns = a.print ns
  | .endif => rfl
  | .otherwise body => by simp only [Alternative.unplaced, Alternative.print, Template.print_unplaced]
  | .elseif c tag body more => by
    simp only [Alternative.unplaced, Alternative.print, Template.print_unplaced, Alternative.print_unplaced]; rfl

theorem Template.print_unplaced (ns : Text) : ∀ t : Template, Template.print ns (Template.unplaced t) = Template.print ns t
  | [] => rfl
  | n :: t => by simp only [Template.unplaced, Template.print, Node.print_unplaced, Template.print_unplaced]

end

mutual

theorem Node.diagnostics_unplaced : ∀ n : Node,
    n.unplaced.diagnostics.map Diagnostic.content = n.diagnostics.map Diagnostic.content
  | .text _ => rfl
  | .comment _ => rfl
  | .var v => v.span.diagnostics_unplaced v.filters
  | .unsupported ⟨name, closing, span⟩ => by cases closing <;> rfl
  | .ifBlock c tag body more => by
    simp only [Node.unplaced, Node.diagnostics, List.map_append, Span.diagnostics_unplaced,
      Template.diagnostics_unplaced, Alternative.diagnostics_unplaced]
  | .forBlock name source tag body => by
    simp only [Node.unplaced, Node.diagnostics, List.map_append, Span.diagnostics_unplaced,
      Template.diagnostics_unplaced]

theorem Alternative.diagnostics_unplaced : ∀ a : Alternative,
    a.unplaced.diagnostics.map Diagnostic.content = a.diagnostics.map Diagnostic.content
  | .endif => rfl
  | .otherwise body => by simp only [Alternative.unplaced, Alternative.diagnostics, Template.diagnostics_unplaced]
  | .elseif c tag body more => by
    simp only [Alternative.unplaced, Alternative.diagnostics, List.map_append, Span.diagnostics_unplaced,
      Template.diagnostics_unplaced, Alternative.diagnostics_unplaced]

theorem Template.diagnostics_unplaced : ∀ t : Template,
    (Template.diagnostics (Template.unplaced t)).map Diagnostic.content =
      (Template.diagnostics t).map Diagnostic.content
  | [] => rfl
  | n :: t => by
    simp only [Template.unplaced, Template.diagnostics, List.map_append, Node.diagnostics_unplaced,
      Template.diagnostics_unplaced]

end

end MailDialect
