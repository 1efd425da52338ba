import MailDialect.Proofs.Concatenation
import MailDialect.Proofs.Frame
import MailDialect.Proofs.LexicalScope

/-!
# The part of the namespace

The namespace tells paths that are written out in it from parameters, and it is put before parameters.
It has no part in anything else: not in what can be read, not in how reading fails, and not in what is
reported. Main statement: `migrate_under_namespaces`. A text in which no path starts with a namespace is
the same text under every namespace but for what stands before its parameters (`Template.fills_print`).
-/

namespace MailDialect

open Reader

/-! ## Reading under another namespace -/

mutual

theorem Node.shift_zero : ∀ n : Node, n.shift 0 = n
  | .text _ => rfl
  | .comment _ => rfl
  | .var _ => rfl
  | .unsupported _ => rfl
  | .ifBlock c tag body more => by rw [Node.shift, Template.shift_zero, Alternative.shift_zero]; rfl
  | .forBlock name source tag body => by rw [Node.shift, Template.shift_zero]; rfl

theorem Alternative.shift_zero : ∀ a : Alternative, a.shift 0 = a
  | .endif => rfl
  | .otherwise body => by rw [Alternative.shift, Template.shift_zero]
  | .elseif c tag body more => by rw [Alternative.shift, Template.shift_zero, Alternative.shift_zero]; rfl

theorem Template.shift_zero : ∀ t : Template, Template.shift 0 t = t
  | [] => rfl
  | n :: t => by rw [Template.shift, Node.shift_zero, Template.shift_zero]

end

section
variable (source ns ns' : Text)

/-- The same tokens make the same template under another namespace, with the scopes of that namespace. -/
theorem Template.ofTokens_namespace (ts : List Token) : Template.ofTokens source ts ns' =
    (Template.ofTokens source ts ns).map (Template.rescope (.lexical ns') []) := by
  have hbehind : Env.Behind 0 ⟨source, ns, []⟩ ⟨source, ns', []⟩ := ⟨⟨[], rfl, rfl⟩, rfl⟩
  have hshift : ∀ us : List Token, us.map (Token.shift 0) = us := List.map_id
  have hnodes := follows_nodes hbehind ts
  rw [hshift ts] at hnodes
  have hif := fun us => hbehind.unexpectedTag us .enclosingIf
  have hfor := fun us => hbehind.unexpectedTag us .enclosingFor
  simp only [hshift] at hif hfor
  unfold Template.ofTokens
  dsimp only
  generalize nodes ⟨source, ns, []⟩ ts = o at hnodes
  generalize nodes ⟨source, ns', []⟩ ts = o' at hnodes
  cases hnodes with
  | error => rfl
  | @ok t rest below below' =>
    simp only [bind, Except.bind, hshift, hif, hfor]
    cases rest with
    | nil => exact congrArg Except.ok (Template.shift_zero _)
    | cons first rest =>
      dsimp only
      split <;> rfl

/-- **A source is read under another namespace as under this one**, but for the scopes of paths. -/
theorem Template.parse_namespace :
    Template.parse source ns' = (Template.parse source ns).map (Template.rescope (.lexical ns') []) := by
  unfold Template.parse
  cases Token.scan source with
  | error e => rfl
  | ok ts =>
    simp only [Except.mapError, bind, Except.bind]
    rw [Template.ofTokens_namespace source ns ns' ts]
    cases Template.ofTokens source ts ns <;> rfl

end

/-! ## What scopes have no part in -/

section
variable (f : Scoping)

mutual

theorem Node.diagnostics_rescope (bound : List Text) : ∀ n : Node, (n.rescope f bound).diagnostics = n.diagnostics
  | .text _ => rfl
  | .comment _ => rfl
  | .var _ => rfl
  | .unsupported _ => rfl
  | .ifBlock c tag body more => by
    simp only [Node.rescope, Node.diagnostics, Expr.filters_rescope, Template.diagnostics_rescope,
      Alternative.diagnostics_rescope]
  | .forBlock name source tag body => by
    simp only [Node.rescope, Node.diagnostics, LoopSource.filters_rescope, Template.diagnostics_rescope]

theorem Alternative.diagnostics_rescope (bound : List Text) : ∀ a : Alternative,
    (a.rescope f bound).diagnostics = a.diagnostics
  | .endif => rfl
  | .otherwise body => by simp only [Alternative.rescope, Alternative.diagnostics, Template.diagnostics_rescope]
  | .elseif c tag body more => by
    simp only [Alternative.rescope, Alternative.diagnostics, Expr.filters_rescope, Template.diagnostics_rescope,
      Alternative.diagnostics_rescope]

theorem Template.diagnostics_rescope (bound : List Text) : ∀ t : Template,
    Template.diagnostics (Template.rescope f bound t) = Template.diagnostics t
  | [] => rfl
  | n :: t => by
    simp only [Template.rescope, Template.diagnostics, Node.diagnostics_rescope, Template.diagnostics_rescope]

end

/-- A path where it stands, with the scope that `f` gives it there. -/
def Occurrence.rescope (o : Occurrence) : Occurrence := ⟨o.loops, o.kept, o.path.rescope (f o.loops)⟩

theorem occurrencesOf_rescope (loops : List Text) (fs : List Filter) (ps : List Path) :
    occurrencesOf loops fs (ps.map (Path.rescope (f loops))) = (occurrencesOf loops fs ps).map (Occurrence.rescope f) := by
  rw [occurrencesOf, occurrencesOf, List.map_map, List.map_map]
  rfl

theorem Expr.rescope_paths (g : Text → Scope) (e : Expr) : (e.rescope g).paths = e.paths.map (Path.rescope g) := by
  induction e <;> simp_all [Expr.rescope, Expr.paths]

theorem LoopSource.rescope_paths (g : Text → Scope) (s : LoopSource) :
    (s.rescope g).paths = s.paths.map (Path.rescope g) := by
  cases s <;> rfl

mutual

theorem Node.occurrences_rescope (loops : List Text) : ∀ n : Node,
    (n.rescope f loops).occurrences loops = (n.occurrences loops).map (Occurrence.rescope f)
  | .text _ => rfl
  | .comment _ => rfl
  | .var _ => rfl
  | .unsupported _ => rfl
  | .ifBlock c tag body more => by
    simp only [Node.rescope, Node.occurrences, Expr.filters_rescope, Expr.rescope_paths, occurrencesOf_rescope,
      Template.occurrences_rescope, Alternative.occurrences_rescope, List.map_append]
  | .forBlock name source tag body => by
    simp only [Node.rescope, Node.occurrences, LoopSource.filters_rescope, LoopSource.rescope_paths,
      occurrencesOf_rescope, Template.occurrences_rescope, List.map_append]

theorem Alternative.occurrences_rescope (loops : List Text) : ∀ a : Alternative,
    (a.rescope f loops).occurrences loops = (a.occurrences loops).map (Occurrence.rescope f)
  | .endif => rfl
  | .otherwise body => by simp only [Alternative.rescope, Alternative.occurrences, Template.occurrences_rescope]
  | .elseif c tag body more => by
    simp only [Alternative.rescope, Alternative.occurrences, Expr.filters_rescope, Expr.rescope_paths,
      occurrencesOf_rescope, Template.occurrences_rescope, Alternative.occurrences_rescope, List.map_append]

theorem Template.occurrences_rescope (loops : List Text) : ∀ t : Template,
    Template.occurrences loops (Template.rescope f loops t) =
      (Template.occurrences loops t).map (Occurrence.rescope f)
  | [] => rfl
  | n :: t => by
    simp only [Template.rescope, Template.occurrences, Node.occurrences_rescope, Template.occurrences_rescope,
      List.map_append]

end

end

/-! ## Scopings that agree -/

section
variable {f g : Scoping} {loops : List Text}

/-- Two scopings give the paths of some occurrences the same scopes. -/
def AgreeOn (f g : Scoping) (os : List Occurrence) : Prop := ∀ o ∈ os, f o.loops o.path.base = g o.loops o.path.base

theorem agreeOn_append {os us : List Occurrence} : AgreeOn f g (os ++ us) ↔ AgreeOn f g os ∧ AgreeOn f g us :=
  List.forall_mem_append

theorem agreeOn_occurrencesOf {fs : List Filter} {ps : List Path} :
    AgreeOn f g (occurrencesOf loops fs ps) ↔ ∀ p ∈ ps, f loops p.base = g loops p.base :=
  List.forall_mem_map

theorem Path.rescope_congr {u v : Text → Scope} {p : Path} (h : u p.base = v p.base) : p.rescope u = p.rescope v := by
  rw [Path.rescope, Path.rescope, h]

theorem Expr.rescope_congr {u v : Text → Scope} {e : Expr} (h : ∀ p ∈ e.paths, u p.base = v p.base) :
    e.rescope u = e.rescope v := by
  induction e with
  | path p => rw [Expr.rescope, Expr.rescope, Path.rescope_congr (h p List.mem_cons_self)]
  | literal l => rfl
  | compare a op b iha ihb | logical a op b iha ihb =>
    obtain ⟨ha, hb⟩ := List.forall_mem_append.1 h
    rw [Expr.rescope, Expr.rescope, iha ha, ihb hb]
  | not e ih | group e ih | filtered e fs ih => rw [Expr.rescope, Expr.rescope, ih h]

theorem LoopSource.rescope_congr {u v : Text → Scope} {s : LoopSource} (h : ∀ p ∈ s.paths, u p.base = v p.base) :
    s.rescope u = s.rescope v := by
  cases s with
  | range bounds => rfl
  | collection p fs => rw [LoopSource.rescope, LoopSource.rescope, Path.rescope_congr (h p List.mem_cons_self)]

end

section
variable {f g : Scoping}

mutual

theorem Node.rescope_congr (loops : List Text) : ∀ n : Node, AgreeOn f g (n.occurrences loops) →
    n.rescope f loops = n.rescope g loops
  | .text _, _ => rfl
  | .comment _, _ => rfl
  | .unsupported _, _ => rfl
  | .var v, h => by
    have hpath := Path.rescope_congr (agreeOn_occurrencesOf.1 h v.path List.mem_cons_self)
    rw [Node.rescope, Node.rescope, Variable.rescope, Variable.rescope, hpath]
  | .ifBlock c tag body more, h => by
    obtain ⟨hc, hrest⟩ := agreeOn_append.1 h
    obtain ⟨hbody, hmore⟩ := agreeOn_append.1 hrest
    rw [Node.rescope, Node.rescope, Expr.rescope_congr (agreeOn_occurrencesOf.1 hc),
      Template.rescope_congr loops body hbody, Alternative.rescope_congr loops more hmore]
  | .forBlock name source tag body, h => by
    obtain ⟨hsource, hbody⟩ := agreeOn_append.1 h
    rw [Node.rescope, Node.rescope, LoopSource.rescope_congr (agreeOn_occurrencesOf.1 hsource),
      Template.rescope_congr (name :: loops) body hbody]

theorem Alternative.rescope_congr (loops : List Text) : ∀ a : Alternative, AgreeOn f g (a.occurrences loops) →
    a.rescope f loops = a.rescope g loops
  | .endif, _ => rfl
  | .otherwise body, h => by
    rw [Alternative.rescope, Alternative.rescope, Template.rescope_congr loops body h]
  | .elseif c tag body more, h => by
    obtain ⟨hc, hrest⟩ := agreeOn_append.1 h
    obtain ⟨hbody, hmore⟩ := agreeOn_append.1 hrest
    rw [Alternative.rescope, Alternative.rescope, Expr.rescope_congr (agreeOn_occurrencesOf.1 hc),
      Template.rescope_congr loops body hbody, Alternative.rescope_congr loops more hmore]

/-- Scopings that agree on the paths of a template give the same template. -/
theorem Template.rescope_congr (loops : List Text) : ∀ t : Template, AgreeOn f g (Template.occurrences loops t) →
    Template.rescope f loops t = Template.rescope g loops t
  | [], _ => rfl
  | n :: t, h => by
    obtain ⟨hfirst, hmore⟩ := agreeOn_append.1 h
    rw [Template.rescope, Template.rescope, Node.rescope_congr loops n hfirst, Template.rescope_congr loops t hmore]

end

end

/-! ## Texts with parameters in them -/

/-- A path of a directive that is written anew, as a parameter. -/
def Occurrence.isParameter (o : Occurrence) : Bool := !o.kept && o.path.scope == .param

/-- The parameters among some occurrences. -/
def parametersOf (os : List Occurrence) : List Path := (os.filter Occurrence.isParameter).map Occurrence.path

/-- The parameters that a template is written with, each with the namespace before it. -/
def Template.parameters (t : Template) : List Path := parametersOf (Template.occurrences [] t)

/-- A text that depends on the namespace in this alone, that it stands before each of the paths `ps`. -/
def Fills (ps : List Path) (write : Text → Text) : Prop :=
  ∃ raws : List Text, raws.length = ps.length + 1 ∧
    ∀ ns, write ns = weave raws (ps.map fun p => ns ++ '.' :: p.dotted)

section
variable {ps qs : List Path} {write write' : Text → Text}

theorem fills_const (raw : Text) : Fills [] fun _ => raw := ⟨[raw], rfl, fun _ => by simp [weave]⟩

theorem fills_param {p : Path} (h : p.scope = .param) : Fills [p] fun ns => p.print ns :=
  ⟨[[], []], rfl, fun ns => by simp [weave, Path.print, h]⟩

/-- Texts side by side: the last gap of the first and the first gap of the second run together. -/
theorem weave_append {raws raws' : List Text} (h : raws.length = ps.length + 1)
    (h' : raws'.length = qs.length + 1) : ∃ all : List Text, all.length = (ps ++ qs).length + 1 ∧
      ∀ put : Path → Text, weave raws (ps.map put) ++ weave raws' (qs.map put) = weave all ((ps ++ qs).map put) := by
  induction ps generalizing raws with
  | nil =>
    obtain ⟨last, rfl⟩ := List.length_eq_one_iff.1 h
    obtain ⟨first, more, rfl⟩ := List.exists_cons_of_length_eq_add_one h'
    refine ⟨(last ++ first) :: more, h', fun put => ?_⟩
    cases qs <;> simp [weave]
  | cons p ps ih =>
    obtain ⟨first, more, rfl⟩ := List.exists_cons_of_length_eq_add_one h
    obtain ⟨all, hall, hweave⟩ := ih (Nat.succ.inj h)
    refine ⟨first :: all, by simp [hall], fun put => ?_⟩
    rw [List.map_cons, weave, List.append_assoc, hweave, List.cons_append, List.map_cons, weave]

theorem Fills.append (h : Fills ps write) (h' : Fills qs write') : Fills (ps ++ qs) fun ns => write ns ++ write' ns := by
  obtain ⟨raws, hraws, hwrite⟩ := h
  obtain ⟨raws', hraws', hwrite'⟩ := h'
  obtain ⟨all, hall, hweave⟩ := weave_append hraws hraws'
  refine ⟨all, hall, fun ns => ?_⟩
  show write ns ++ write' ns = _
  rw [hwrite, hwrite', hweave]

/-- Without paths to put it before, the namespace has no part in the text. -/
theorem Fills.eq_of_nil (h : Fills [] write) (ns ns' : Text) : write ns = write ns' := by
  obtain ⟨raws, -, hwrite⟩ := h
  rw [hwrite ns, hwrite ns', List.map_nil, List.map_nil]

theorem Fills.before (h : Fills ps write) (raw : Text) : Fills ps fun ns => raw ++ write ns :=
  (fills_const raw).append h

theorem Fills.behind (h : Fills ps write) (raw : Text) : Fills ps fun ns => write ns ++ raw := by
  simpa using h.append (fills_const raw)

theorem Fills.enclose (h : Fills ps write) (d : Delim) : Fills ps fun ns => d.enclose (write ns) :=
  (h.before d.opener).behind d.closer

theorem Fills.printTag (h : Fills ps write) : Fills ps fun ns => MailDialect.printTag (write ns) :=
  ((h.before [' ']).behind [' ']).enclose .tag

end

/-! ## Templates as such texts -/

/-- The parameters among paths. -/
def Path.params (ps : List Path) : List Path := ps.filter fun p => p.scope == .param

theorem parametersOf_append (os us : List Occurrence) :
    parametersOf (os ++ us) = parametersOf os ++ parametersOf us := by
  rw [parametersOf, List.filter_append, List.map_append, parametersOf, parametersOf]

/-- A directive that is passed on is written without parameters. -/
theorem parametersOf_occurrencesOf (loops : List Text) (fs : List Filter) (ps : List Path) :
    parametersOf (occurrencesOf loops fs ps) = if fs.any Filter.isUnsupported then [] else Path.params ps := by
  rw [parametersOf, occurrencesOf, List.filter_map, List.map_map]
  by_cases hkept : fs.any Filter.isUnsupported
  · have hnone : (Occurrence.isParameter ∘ fun p => ⟨loops, fs.any Filter.isUnsupported, p⟩) = fun _ => false := by
      funext p
      simp [Occurrence.isParameter, hkept]
    rw [if_pos hkept, hnone, List.filter_false, List.map_nil]
  · have hall : (Occurrence.isParameter ∘ fun p => ⟨loops, fs.any Filter.isUnsupported, p⟩) =
        fun p => p.scope == .param := by
      funext p
      simp [Occurrence.isParameter, hkept]
    rw [if_neg hkept, hall]
    exact List.map_id _

theorem Path.fills (p : Path) : Fills (Path.params [p]) fun ns => p.print ns := by
  by_cases hparam : p.scope = .param
  · rw [Path.params, List.filter_cons_of_pos (by simp [hparam])]
    exact fills_param hparam
  · rw [Path.params, List.filter_cons_of_neg (by simp [hparam])]
    simp only [Path.print_of_scope_ne hparam]
    exact fills_const _

theorem Expr.fills (e : Expr) : Fills (Path.params e.paths) fun ns => e.print ns := by
  induction e with
  | path p => exact p.fills
  | literal l => exact fills_const _
  | compare a op b iha ihb | logical a op b iha ihb =>
    rw [Expr.paths, Path.params, List.filter_append]
    exact (iha.behind (' ' :: op.spelling)).append (ihb.before [' '])
  | not e ih => exact ih.before _
  | group e ih => exact (ih.before ['(']).behind _
  | filtered e fs ih => exact ih.behind _

theorem Variable.fills (loops : List Text) (v : Variable) :
    Fills (parametersOf (occurrencesOf loops v.filters [v.path])) fun ns => v.print ns := by
  rw [parametersOf_occurrencesOf]
  by_cases hkept : v.filters.any Filter.isUnsupported
  · rw [if_pos hkept]
    simp only [Variable.print, hkept, Bool.true_or, if_true]
    exact fills_const _
  · rw [if_neg hkept]
    by_cases hforeign : v.isForeign
    · simp only [Variable.print, hkept, hforeign, Bool.not_true, Bool.or_false, Bool.false_eq_true, if_false]
      exact ((v.path.fills.behind _).behind _).enclose .var
    · have hscope : v.path.scope ≠ .param := by
        intro hparam
        simp [Variable.isForeign, hparam] at hforeign
      rw [Path.params, List.filter_cons_of_neg (by simp [hscope])]
      simp only [Variable.print, hforeign, Bool.not_false, Bool.or_true, if_true]
      exact fills_const _

theorem Expr.fills_printTag (loops : List Text) (word : Text) (c : Expr) (tag : Span) :
    Fills (parametersOf (occurrencesOf loops c.filters c.paths)) fun ns => c.printTag ns word tag := by
  rw [parametersOf_occurrencesOf]
  by_cases hkept : c.filters.any Filter.isUnsupported
  · simp only [Expr.printTag, hkept, if_true]
    exact fills_const _
  · simp only [Expr.printTag, hkept, Bool.false_eq_true, if_false]
    have hbody : Fills (Path.params c.paths) fun ns => word ++ ' ' :: c.print ns := (c.fills.before [' ']).before word
    exact hbody.printTag

theorem LoopSource.fills_printTag (loops : List Text) (name : Text) (s : LoopSource) (tag : Span) :
    Fills (parametersOf (occurrencesOf loops s.filters s.paths)) fun ns => s.printTag ns name tag := by
  cases s with
  | range bounds => exact fills_const _
  | collection p fs =>
    rw [parametersOf_occurrencesOf]
    by_cases hkept : fs.any Filter.isUnsupported
    · simp only [LoopSource.printTag, LoopSource.filters, hkept, if_true]
      exact fills_const _
    · simp only [LoopSource.printTag, LoopSource.filters, hkept, Bool.false_eq_true, if_false]
      exact ((p.fills.before _).behind _).printTag

mutual

theorem Node.fills_print (loops : List Text) : ∀ n : Node, Fills (parametersOf (n.occurrences loops)) fun ns => n.print ns
  | .text raw => fills_const raw
  | .comment raw => fills_const raw
  | .unsupported u => fills_const u.span.raw
  | .var v => v.fills loops
  | .ifBlock c tag body more => by
    rw [Node.occurrences, ← List.append_assoc, parametersOf_append, parametersOf_append]
    exact ((c.fills_printTag loops _ tag).append (Template.fills_print loops body)).append
      (Alternative.fills_print loops more)
  | .forBlock name source tag body => by
    rw [Node.occurrences, parametersOf_append]
    exact ((source.fills_printTag loops name tag).append (Template.fills_print (name :: loops) body)).behind _

theorem Alternative.fills_print (loops : List Text) : ∀ a : Alternative,
    Fills (parametersOf (a.occurrences loops)) fun ns => a.print ns
  | .endif => fills_const _
  | .otherwise body => ((Template.fills_print loops body).before _).behind _
  | .elseif c tag body more => by
    rw [Alternative.occurrences, ← List.append_assoc, parametersOf_append, parametersOf_append]
    exact ((c.fills_printTag loops _ tag).append (Template.fills_print loops body)).append
      (Alternative.fills_print loops more)

/-- **A template is written under every namespace with the same text around its parameters.** -/
theorem Template.fills_print (loops : List Text) : ∀ t : Template,
    Fills (parametersOf (Template.occurrences loops t)) fun ns => Template.print ns t
  | [] => fills_const []
  | n :: t => by
    rw [Template.occurrences, parametersOf_append]
    exact (Node.fills_print loops n).append (Template.fills_print loops t)

end

/-! ## Two namespaces -/

/-- One path as it is read under the namespaces `ns` and `ns'`: only a path that starts with one of them
may be in the namespace here and a parameter there. -/
structure Occurrence.ReadUnder (ns ns' : Text) (o o' : Occurrence) : Prop where
  loops : o'.loops = o.loops
  kept : o'.kept = o.kept
  segments : o'.path.segments = o.path.segments
  scope : o'.path.scope = o.path.scope ∨
    (o.path.base = ns ∧ o.path.scope = .namespaced ∧ o'.path.scope = .param) ∨
    (o.path.base = ns' ∧ o.path.scope = .param ∧ o'.path.scope = .namespaced)

section
variable {ns ns' : Text}

theorem Scoping.lexical_or (ns ns' : Text) (loops : List Text) (name : Text) :
    Scoping.lexical ns' loops name = Scoping.lexical ns loops name ∨
      (name = ns ∧ Scoping.lexical ns loops name = .namespaced ∧ Scoping.lexical ns' loops name = .param) ∨
      (name = ns' ∧ Scoping.lexical ns loops name = .param ∧ Scoping.lexical ns' loops name = .namespaced) := by
  rw [Scoping.lexical_eq, Scoping.lexical_eq]
  by_cases hloop : Captures loops name
  · simp [hloop]
  · by_cases hns : name = ns <;> by_cases hns' : name = ns' <;> simp_all

theorem Occurrence.readUnder_rescope {o : Occurrence} (h : o.path.scope = Scoping.lexical ns o.loops o.path.base) :
    Occurrence.ReadUnder ns ns' o (o.rescope (.lexical ns')) := by
  refine ⟨rfl, rfl, rfl, ?_⟩
  rw [h]
  exact Scoping.lexical_or ns ns' o.loops o.path.base

/-- A name that is none of two namespaces has the same scope under both. -/
theorem Scoping.lexical_of_ne {loops : List Text} {name : Text} (hns : name ≠ ns) (hns' : name ≠ ns') :
    Scoping.lexical ns' loops name = Scoping.lexical ns loops name := by
  rw [Scoping.lexical_eq, Scoping.lexical_eq, if_neg hns, if_neg hns']

end

/-- **The namespace has a part in nothing but the text before parameters.** Under two namespaces a source
fails in the same way, or gives templates that differ only in which of the paths that start with one of
the two are parameters. These templates have the same diagnostics, so that settings of the same
strictness forbid both or none. And if no path starts with one of the two namespaces, then the templates
are the same, and so are the outputs, but for the namespace before each parameter that is written. -/
theorem migrate_under_namespaces {ns ns' : Text} (hns : ns.isWord) (hns' : ns'.isWord) (strict : Bool)
    (source : Text) :
    (∃ e, Template.parse source ns = .error e ∧ Template.parse source ns' = .error e ∧
      migrate ⟨strict, ns⟩ source = .error e ∧ migrate ⟨strict, ns'⟩ source = .error e) ∨
    ∃ t t', Template.parse source ns = .ok t ∧ Template.parse source ns' = .ok t' ∧
      Template.unscoped t' = Template.unscoped t ∧
      List.Forall₂ (Occurrence.ReadUnder ns ns') (Template.occurrences [] t) (Template.occurrences [] t') ∧
      ((∃ e, migrate ⟨strict, ns⟩ source = .error e ∧ migrate ⟨strict, ns'⟩ source = .error e) ∨
        ∃ m m', migrate ⟨strict, ns⟩ source = .ok m ∧ migrate ⟨strict, ns'⟩ source = .ok m' ∧
          m'.diagnostics = m.diagnostics ∧
          ((∀ o ∈ Template.occurrences [] t, o.path.base ≠ ns ∧ o.path.base ≠ ns') → t' = t ∧
            ∃ raws : List Text, raws.length = (Template.parameters t).length + 1 ∧
              m.output = weave raws ((Template.parameters t).map fun p => ns ++ '.' :: p.dotted) ∧
              m'.output = weave raws ((Template.parameters t).map fun p => ns' ++ '.' :: p.dotted))) := by
  have hother := Template.parse_namespace source ns ns'
  rw [migrate_of_isWord hns, migrate_of_isWord hns']
  cases hparse : Template.parse source ns with
  | error e =>
    rw [hparse] at hother
    exact .inl ⟨e, rfl, hother, rfl, by simp only [hother, Except.map]⟩
  | ok t =>
    rw [hparse] at hother
    obtain ⟨-, -, -, -, hscopes⟩ := Template.pieces_of_parse hparse
    have hlexical := Template.scope_occurrences _ [] t hscopes
    refine .inr ⟨t, _, rfl, hother, ?_, ?_, ?_⟩
    · rw [Template.unscoped, Template.rescope_rescope, Template.unscoped]
    · rw [Template.occurrences_rescope, List.forall₂_map_right_iff, List.forall₂_same]
      exact fun o ho => Occurrence.readUnder_rescope (hlexical o ho)
    · simp only [hother, Except.map, Template.diagnostics_rescope]
      by_cases hforbidden : strict ∧ Template.diagnostics t ≠ []
      · rw [if_pos hforbidden, if_pos hforbidden]
        exact .inl ⟨_, rfl, rfl⟩
      · rw [if_neg hforbidden, if_neg hforbidden]
        refine .inr ⟨_, _, rfl, rfl, rfl, fun hfree => ?_⟩
        have hsame : Template.rescope (.lexical ns') [] t = t := by
          have hagree : AgreeOn (.lexical ns') (.lexical ns) (Template.occurrences [] t) := fun o ho =>
            Scoping.lexical_of_ne (hfree o ho).1 (hfree o ho).2
          rw [Template.rescope_congr [] t hagree, hscopes]
        obtain ⟨raws, hraws, hprint⟩ := Template.fills_print [] t
        exact ⟨hsame, raws, hraws, hprint ns, by rw [hsame]; exact hprint ns'⟩

/-- A parameter with a default inside a condition on a loop variable, under two namespaces. -/
theorem migrate_under_namespaces_loop : ∃ source,
    (source = Delim.tag.enclose "for v in xs".toList ++ Delim.tag.enclose "if v.a and y".toList ++
      Delim.var.enclose "var:z:'d'".toList ++ Delim.tag.enclose "endif".toList ++ Delim.tag.enclose "endfor".toList ∧
    Text.isWord "params".toList ∧ Text.isWord "contact".toList ∧
    (migrate ⟨true, "contact".toList⟩ source).toOption.map Migration.output =
      some (Delim.tag.enclose " for v in contact.xs ".toList ++ Delim.tag.enclose " if v.a and contact.y ".toList ++
        Delim.var.enclose "contact.z|default:\"d\"".toList ++ Delim.tag.enclose " endif ".toList ++
        Delim.tag.enclose " endfor ".toList)) ∧
    ((∃ e, Template.parse source "params".toList = .error e ∧ Template.parse source "contact".toList = .error e ∧
      migrate ⟨true, "params".toList⟩ source = .error e ∧ migrate ⟨true, "contact".toList⟩ source = .error e) ∨
    ∃ t t', Template.parse source "params".toList = .ok t ∧ Template.parse source "contact".toList = .ok t' ∧
      Template.unscoped t' = Template.unscoped t ∧
      List.Forall₂ (Occurrence.ReadUnder "params".toList "contact".toList) (Template.occurrences [] t)
        (Template.occurrences [] t') ∧
      ((∃ e, migrate ⟨true, "params".toList⟩ source = .error e ∧ migrate ⟨true, "contact".toList⟩ source = .error e) ∨
        ∃ m m', migrate ⟨true, "params".toList⟩ source = .ok m ∧ migrate ⟨true, "contact".toList⟩ source = .ok m' ∧
          m'.diagnostics = m.diagnostics ∧
          ((∀ o ∈ Template.occurrences [] t, o.path.base ≠ "params".toList ∧ o.path.base ≠ "contact".toList) →
            t' = t ∧ ∃ raws : List Text, raws.length = (Template.parameters t).length + 1 ∧
              m.output = weave raws ((Template.parameters t).map fun p => "params".toList ++ '.' :: p.dotted) ∧
              m'.output = weave raws ((Template.parameters t).map fun p => "contact".toList ++ '.' :: p.dotted)))) := by
  refine ⟨_, ⟨rfl, ?_, ?_, ?_⟩, migrate_under_namespaces ?_ ?_ true _⟩ <;> decide +kernel

end MailDialect
