import MailDialect.Proofs.Stability

/-!
# Names that loops bind

Each path of a template can be followed into the text that the template is written as. A path that a
loop binds stays bound by that loop, and a path in the namespace stays there. A parameter gets the
namespace before it and is found there, unless a loop around it binds the name of the namespace:
nothing keeps a loop from capturing it. Main statement: `Template.occurrences_follow`.
-/

namespace MailDialect

/-! ## Occurrences -/

/-- A path where it stands. -/
structure Occurrence where
  /-- The variables of the loops around it, innermost first. -/
  loops : List Text
  /-- Whether its directive is passed on for the sake of an unsupported filter. -/
  kept : Bool
  path : Path
deriving DecidableEq

/-- The paths of a condition, in the order they are written. -/
def Expr.paths : Expr → List Path
  | .path p => [p]
  | .literal _ => []
  | .compare a _ b => a.paths ++ b.paths
  | .logical a _ b => a.paths ++ b.paths
  | .not e => e.paths
  | .group e => e.paths
  | .filtered e _ => e.paths

/-- The paths of what a loop runs over; bounds are passed on. -/
def LoopSource.paths : LoopSource → List Path
  | .collection p _ => [p]
  | .range _ => []

/-- The paths of one directive. -/
def occurrencesOf (loops : List Text) (filters : List Filter) (paths : List Path) : List Occurrence :=
  paths.map (⟨loops, filters.any Filter.isUnsupported, ·⟩)

mutual

def Node.occurrences (loops : List Text) : Node → List Occurrence
  | .text _ => []
  | .comment _ => []
  | .var v => occurrencesOf loops v.filters [v.path]
  | .ifBlock c _ body more =>
    occurrencesOf loops c.filters c.paths ++ (Template.occurrences loops body ++ more.occurrences loops)
  | .forBlock name source _ body =>
    occurrencesOf loops source.filters source.paths ++ Template.occurrences (name :: loops) body
  | .unsupported _ => []

def Alternative.occurrences (loops : List Text) : Alternative → List Occurrence
  | .endif => []
  | .otherwise body => Template.occurrences loops body
  | .elseif c _ body more =>
    occurrencesOf loops c.filters c.paths ++ (Template.occurrences loops body ++ more.occurrences loops)

/-- The paths of a template inside the given loops, in the order they are written. -/
def Template.occurrences (loops : List Text) : Template → List Occurrence
  | [] => []
  | n :: t => n.occurrences loops ++ Template.occurrences loops t

end

/-! ## Binding -/

/-- The loop that binds a name, counted from the innermost: the first with this variable, and the very
first for the loop helper. -/
def binder? (loops : List Text) (name : Text) : Option Nat :=
  loops.findIdx? fun v => v == name || name == Dialect.loopHelper

/-- One of the loops binds a name. -/
def Captures (loops : List Text) (name : Text) : Prop :=
  name ∈ loops ∨ loops ≠ [] ∧ name = Dialect.loopHelper

instance (loops : List Text) (name : Text) : Decidable (Captures loops name) :=
  inferInstanceAs (Decidable (_ ∨ _))

theorem captures_iff_binder? {loops : List Text} {name : Text} :
    Captures loops name ↔ ∃ i, binder? loops name = some i := by
  rw [← Option.isSome_iff_exists, binder?, List.findIdx?_isSome]
  simp only [Captures, List.any_eq_true, Bool.or_eq_true, beq_iff_eq]
  constructor
  · rintro (h | ⟨hne, rfl⟩)
    · exact ⟨name, h, .inl rfl⟩
    · obtain ⟨v, rest, rfl⟩ := List.exists_cons_of_ne_nil hne
      exact ⟨v, List.mem_cons_self, .inr rfl⟩
  · rintro ⟨v, hv, rfl | rfl⟩
    · exact .inl hv
    · exact .inr ⟨List.ne_nil_of_mem hv, rfl⟩

/-- Loops come first, then the namespace. -/
theorem Scoping.lexical_eq (ns : Text) (loops : List Text) (name : Text) :
    Scoping.lexical ns loops name =
      if Captures loops name then .loopLocal else if name = ns then .namespaced else .param := by
  simp only [Scoping.lexical, Reader.Env.resolve, Captures, Bool.or_eq_true, List.contains_iff_mem, Bool.and_eq_true,
    Bool.not_eq_true', List.isEmpty_eq_false_iff, beq_iff_eq]
  rfl

/-! ## Following a path -/

/-- What becomes of a path, if a parameter inside `loops` is found in `scope loops` afterwards. -/
def Occurrence.Follows (ns : Text) (scope : List Text → Scope) (a b : Occurrence) : Prop :=
  b.loops = a.loops ∧ b.kept = a.kept ∧
    if a.kept then b.path = a.path
    else match a.path.scope with
      | .param => b.path = ⟨ns, a.path.segments, scope a.loops⟩
      | .loopLocal => b.path = a.path ∧
        ∃ i, binder? a.loops a.path.base = some i ∧ binder? b.loops b.path.base = some i
      | .namespaced => b.path = a.path

/-- Where a parameter is found once the namespace stands before it. -/
def scopeOfNamespace (ns : Text) (loops : List Text) : Scope :=
  if Captures loops ns then .loopLocal else .namespaced

section
variable {ns : Text} {loops : List Text}

theorem Path.follows {p : Path} (h : p.rescope (Scoping.lexical ns loops) = p) (kept : Bool) :
    Occurrence.Follows ns (scopeOfNamespace ns) ⟨loops, kept, p⟩
      ⟨loops, kept, (if kept then p else p.qualify ns).rescope (Scoping.lexical ns loops)⟩ := by
  refine ⟨rfl, rfl, ?_⟩
  cases kept with
  | true => exact h
  | false =>
    obtain ⟨base, fields, scope⟩ := p
    have hscope : Scoping.lexical ns loops base = scope := congrArg Path.scope h
    cases scope with
    | param => simp [Path.qualify, Path.rescope, Path.segments, Scoping.lexical_eq, scopeOfNamespace]
    | namespaced => exact h
    | loopLocal =>
      have hcaptures : Captures loops base := by
        by_contra hfree
        rw [Scoping.lexical_eq, if_neg hfree] at hscope
        split at hscope <;> cases hscope
      obtain ⟨i, hi⟩ := captures_iff_binder?.1 hcaptures
      exact ⟨h, i, hi, hi⟩

theorem occurrencesOf_follow {fs gs : List Filter} {ps qs : List Path}
    (hkept : gs.any Filter.isUnsupported = fs.any Filter.isUnsupported)
    (hscopes : ∀ p ∈ ps, p.rescope (Scoping.lexical ns loops) = p)
    (hpaths : qs = ps.map fun p =>
      (if fs.any Filter.isUnsupported then p else p.qualify ns).rescope (Scoping.lexical ns loops)) :
    List.Forall₂ (Occurrence.Follows ns (scopeOfNamespace ns)) (occurrencesOf loops fs ps)
      (occurrencesOf loops gs qs) := by
  rw [occurrencesOf, occurrencesOf, hkept, hpaths, List.map_map, List.forall₂_map_left_iff, List.forall₂_map_right_iff,
    List.forall₂_same]
  exact fun p hp => Path.follows (hscopes p hp) _

theorem Expr.paths_rescope_qualify (f : Text → Scope) (e : Expr) :
    ((e.qualify ns).rescope f).paths = e.paths.map fun p => (p.qualify ns).rescope f := by
  induction e <;> simp_all [Expr.qualify, Expr.rescope, Expr.paths]

theorem Expr.paths_rescope {f : Text → Scope} {e : Expr} (h : e.rescope f = e) :
    ∀ p ∈ e.paths, p.rescope f = p := by
  induction e <;> simp_all [Expr.rescope, Expr.paths, or_imp]

theorem Expr.follow {c : Expr} (h : c.rescope (Scoping.lexical ns loops) = c) :
    List.Forall₂ (Occurrence.Follows ns (scopeOfNamespace ns)) (occurrencesOf loops c.filters c.paths)
      (occurrencesOf loops ((c.norm ns).rescope (Scoping.lexical ns loops)).filters
        ((c.norm ns).rescope (Scoping.lexical ns loops)).paths) := by
  have hscopes := Expr.paths_rescope h
  refine occurrencesOf_follow (by rw [Expr.filters_rescope, Expr.filters_norm]) hscopes ?_
  by_cases hkept : c.filters.any Filter.isUnsupported
  · simp only [Expr.norm, hkept, if_true, h]
    exact ((List.map_congr_left hscopes).trans c.paths.map_id').symm
  · simp only [Expr.norm, hkept, if_false, Bool.false_eq_true, Expr.paths_rescope_qualify]

theorem LoopSource.follow {s : LoopSource} (h : s.rescope (Scoping.lexical ns loops) = s) :
    List.Forall₂ (Occurrence.Follows ns (scopeOfNamespace ns)) (occurrencesOf loops s.filters s.paths)
      (occurrencesOf loops ((s.norm ns).rescope (Scoping.lexical ns loops)).filters
        ((s.norm ns).rescope (Scoping.lexical ns loops)).paths) := by
  cases s with
  | range bounds => exact .nil
  | collection p fs =>
    have hpath : p.rescope (Scoping.lexical ns loops) = p := by simpa [LoopSource.rescope] using h
    exact occurrencesOf_follow rfl (by simpa [LoopSource.paths] using hpath) rfl

/-- A variable that both dialects write alike has no parameter to put into the namespace. -/
theorem Variable.path_norm (v : Variable) :
    (v.norm ns).path = if v.filters.any Filter.isUnsupported then v.path else v.path.qualify ns := by
  by_cases hfilters : v.filters.any Filter.isUnsupported
  · rw [if_pos hfilters, Variable.norm, if_pos (by simp [Variable.isKept, hfilters])]
  · rw [if_neg hfilters]
    by_cases hkept : v.isKept
    · rw [Variable.norm, if_pos hkept]
      have hscope : v.path.scope ≠ .param := by
        simp only [Variable.isKept, Variable.isForeign, hfilters, Bool.false_or, Bool.not_eq_true'] at hkept
        simp_all
      unfold Path.qualify
      split <;> simp_all
    · rw [Variable.norm, if_neg hkept]

theorem Variable.follow {v : Variable} (h : v.rescope (Scoping.lexical ns loops) = v) :
    List.Forall₂ (Occurrence.Follows ns (scopeOfNamespace ns)) (occurrencesOf loops v.filters [v.path])
      (occurrencesOf loops (v.norm ns).filters [(v.norm ns).path.rescope (Scoping.lexical ns loops)]) := by
  have hpath : v.path.rescope (Scoping.lexical ns loops) = v.path := congrArg Variable.path h
  refine occurrencesOf_follow (v.any_filters_norm ns) (by simpa using hpath) ?_
  rw [Variable.path_norm]
  rfl

end

/-! ## Templates -/

mutual

theorem Node.occurrences_norm (ns : Text) (loops : List Text) : ∀ n : Node, n.rescope (.lexical ns) loops = n →
    List.Forall₂ (Occurrence.Follows ns (scopeOfNamespace ns)) (n.occurrences loops)
      (((n.norm ns).rescope (.lexical ns) loops).occurrences loops)
  | .text _, _ => .nil
  | .comment _, _ => .nil
  | .unsupported _, _ => .nil
  | .var v, h => by
    rw [Node.rescope, Node.var.injEq] at h
    exact Variable.follow h
  | .ifBlock c tag body more, h => by
    simp only [Node.rescope, Node.ifBlock.injEq, true_and] at h
    exact List.rel_append (Expr.follow h.1)
      (List.rel_append (Template.occurrences_norm ns loops body h.2.1) (Alternative.occurrences_norm ns loops more h.2.2))
  | .forBlock name source tag body, h => by
    simp only [Node.rescope, Node.forBlock.injEq, true_and] at h
    exact List.rel_append (LoopSource.follow h.1) (Template.occurrences_norm ns (name :: loops) body h.2)

theorem Alternative.occurrences_norm (ns : Text) (loops : List Text) : ∀ a : Alternative,
    a.rescope (.lexical ns) loops = a →
    List.Forall₂ (Occurrence.Follows ns (scopeOfNamespace ns)) (a.occurrences loops)
      (((a.norm ns).rescope (.lexical ns) loops).occurrences loops)
  | .endif, _ => .nil
  | .otherwise body, h => by
    simp only [Alternative.rescope, Alternative.otherwise.injEq] at h
    exact Template.occurrences_norm ns loops body h
  | .elseif c tag body more, h => by
    simp only [Alternative.rescope, Alternative.elseif.injEq, true_and] at h
    exact List.rel_append (Expr.follow h.1)
      (List.rel_append (Template.occurrences_norm ns loops body h.2.1) (Alternative.occurrences_norm ns loops more h.2.2))

theorem Template.occurrences_norm (ns : Text) (loops : List Text) : ∀ t : Template,
    Template.rescope (.lexical ns) loops t = t →
    List.Forall₂ (Occurrence.Follows ns (scopeOfNamespace ns)) (Template.occurrences loops t)
      (Template.occurrences loops (Template.rescope (.lexical ns) loops (Template.norm ns t)))
  | [], _ => .nil
  | n :: t, h => by
    simp only [Template.rescope, List.cons.injEq] at h
    exact List.rel_append (Node.occurrences_norm ns loops n h.1) (Template.occurrences_norm ns loops t h.2)

end

mutual

theorem Node.occurrences_unplaced (loops : List Text) : ∀ n : Node, n.unplaced.occurrences loops = n.occurrences loops
  | .text _ => rfl
  | .comment _ => rfl
  | .var _ => rfl
  | .unsupported _ => rfl
  | .ifBlock c tag body more => by
    simp only [Node.unplaced, Node.occurrences, Template.occurrences_unplaced, Alternative.occurrences_unplaced]
  | .forBlock name source tag body => by
    simp only [Node.unplaced, Node.occurrences, Template.occurrences_unplaced]

theorem Alternative.occurrences_unplaced (loops : List Text) : ∀ a : Alternative,
    a.unplaced.occurrences loops = a.occurrences loops
  | .endif => rfl
  | .otherwise body => by simp only [Alternative.unplaced, Alternative.occurrences, Template.occurrences_unplaced]
  | .elseif c tag body more => by
    simp only [Alternative.unplaced, Alternative.occurrences, Template.occurrences_unplaced,
      Alternative.occurrences_unplaced]

theorem Template.occurrences_unplaced (loops : List Text) : ∀ t : Template,
    Template.occurrences loops (Template.unplaced t) = Template.occurrences loops t
  | [] => rfl
  | n :: t => by
    simp only [Template.unplaced, Template.occurrences, Node.occurrences_unplaced, Template.occurrences_unplaced]

end

/-- **Every path can be followed into the text that is written.** A path that a loop binds stays bound
by that loop, and a path in the namespace stays there. A parameter is in the namespace afterwards,
except where a loop around it binds the name of the namespace: there it is taken for a path of the loop. -/
theorem Template.occurrences_follow {source ns : Text} {m : Migration} (hfree : Keyword.ofWord? ns = none)
    (h : migrate ⟨false, ns⟩ source = .ok m) : ∃ t t', Template.parse source ns = .ok t ∧
      Template.parse m.output ns = .ok t' ∧
      List.Forall₂ (Occurrence.Follows ns (scopeOfNamespace ns)) (Template.occurrences [] t)
        (Template.occurrences [] t') := by
  obtain ⟨hword, t, hparse, -, rfl⟩ := migrate_eq_ok_iff.1 h
  obtain ⟨t', hparse', hplaces⟩ := Template.parse_print ⟨hword, hfree⟩ hparse
  obtain ⟨-, -, -, -, hscopes⟩ := Template.pieces_of_parse hparse
  refine ⟨t, t', hparse, hparse', ?_⟩
  rw [← Template.occurrences_unplaced [] t', hplaces, Template.occurrences_unplaced]
  exact Template.occurrences_norm ns [] t hscopes

/-- A parameter outside of loops, and paths inside nested loops that bind the helper and the namespace. -/
theorem Template.occurrences_follow_nested : ∃ m,
    (migrate ⟨false, "params".toList⟩ (Delim.var.enclose "x".toList ++ Delim.tag.enclose "for v in xs".toList ++
      Delim.tag.enclose "for params in v.ys".toList ++ Delim.var.enclose "var:x".toList ++
      Delim.var.enclose "loop.index".toList ++ Delim.tag.enclose "endfor".toList ++
      Delim.tag.enclose "endfor".toList) = .ok m ∧
    m.output = Delim.var.enclose "params.x".toList ++ Delim.tag.enclose " for v in params.xs ".toList ++
      Delim.tag.enclose " for params in v.ys ".toList ++ Delim.var.enclose "params.x".toList ++
      Delim.var.enclose "loop.index".toList ++ Delim.tag.enclose " endfor ".toList ++
      Delim.tag.enclose " endfor ".toList) ∧
    ∃ t t', Template.parse (Delim.var.enclose "x".toList ++ Delim.tag.enclose "for v in xs".toList ++
      Delim.tag.enclose "for params in v.ys".toList ++ Delim.var.enclose "var:x".toList ++
      Delim.var.enclose "loop.index".toList ++ Delim.tag.enclose "endfor".toList ++
      Delim.tag.enclose "endfor".toList) "params".toList = .ok t ∧
      Template.parse m.output "params".toList = .ok t' ∧
      List.Forall₂ (Occurrence.Follows "params".toList (scopeOfNamespace "params".toList))
        (Template.occurrences [] t) (Template.occurrences [] t') := by
  refine (exists_ok_of_toOption ?_).imp fun m h => ⟨h, Template.occurrences_follow (by decide +kernel) h.1⟩
  decide +kernel

/-- A loop may capture the namespace: a loop with the variable `params` over `items` takes a parameter
`x` inside it for a property of its variable, once `params` stands before `x`. -/
theorem loop_captures_namespace : ¬ ∀ (source ns : Text) (m : Migration) (t t' : Template),
    Keyword.ofWord? ns = none → migrate ⟨false, ns⟩ source = .ok m → Template.parse source ns = .ok t →
    Template.parse m.output ns = .ok t' →
    List.Forall₂ (Occurrence.Follows ns fun _ => .namespaced) (Template.occurrences [] t)
      (Template.occurrences [] t') := by
  intro hall
  have hmigrate : ∃ m, migrate ⟨false, "params".toList⟩ (Delim.tag.enclose "for params in items".toList ++
      Delim.var.enclose "x".toList ++ Delim.tag.enclose "endfor".toList) = .ok m ∧
      m.output = Delim.tag.enclose " for params in params.items ".toList ++ Delim.var.enclose "params.x".toList ++
        Delim.tag.enclose " endfor ".toList := exists_ok_of_toOption (by decide +kernel)
  have hsource : ∃ t, Template.parse (Delim.tag.enclose "for params in items".toList ++
      Delim.var.enclose "x".toList ++ Delim.tag.enclose "endfor".toList) "params".toList = .ok t ∧
      Template.occurrences [] t = [⟨[], false, ⟨"items".toList, [], .param⟩⟩,
        ⟨["params".toList], false, ⟨"x".toList, [], .param⟩⟩] := exists_ok_of_toOption (by decide +kernel)
  have houtput : ∃ t', Template.parse (Delim.tag.enclose " for params in params.items ".toList ++
      Delim.var.enclose "params.x".toList ++ Delim.tag.enclose " endfor ".toList) "params".toList = .ok t' ∧
      Template.occurrences [] t' = [⟨[], false, ⟨"params".toList, ["items".toList], .namespaced⟩⟩,
        ⟨["params".toList], false, ⟨"params".toList, ["x".toList], .loopLocal⟩⟩] :=
    exists_ok_of_toOption (by decide +kernel)
  obtain ⟨m, hm, hout⟩ := hmigrate
  obtain ⟨t, ht, hoccurrences⟩ := hsource
  obtain ⟨t', ht', hoccurrences'⟩ := houtput
  rw [← hout] at ht'
  have hfollows := hall _ _ m t t' (by decide +kernel) hm ht ht'
  rw [hoccurrences, hoccurrences', List.forall₂_cons, List.forall₂_cons] at hfollows
  obtain ⟨-, ⟨-, -, hpath⟩, -⟩ := hfollows
  have hscope : Scope.loopLocal = .namespaced := congrArg Path.scope hpath
  cases hscope

end MailDialect
