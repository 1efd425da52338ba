import MailDialect.Proofs.Capture

/-!
# Scopes are lexical

A path is found where the text around it says: in a loop whose body holds it, else in the namespace,
else among the parameters. What a loop runs over stands outside of the loop, and behind its end a
loop binds nothing. Main statement: every path of a template that was read has the scope that the
loops around it give to its base name (`Template.scopes_lexical`).
-/

namespace MailDialect

/-! ## Paths with the scopes that belong to them -/

section
variable {f : Scoping} {loops : List Text}

theorem occurrencesOf_scope {fs : List Filter} {ps : List Path} (h : ∀ p ∈ ps, p.rescope (f loops) = p) :
    ∀ o ∈ occurrencesOf loops fs ps, o.path.scope = f o.loops o.path.base := by
  intro o ho
  obtain ⟨p, hp, rfl⟩ := List.mem_map.1 ho
  exact (congrArg Path.scope (h p hp)).symm

theorem LoopSource.paths_rescope {s : LoopSource} (h : s.rescope (f loops) = s) :
    ∀ p ∈ s.paths, p.rescope (f loops) = p := by
  cases s with
  | range bounds => simp [LoopSource.paths]
  | collection p fs => simpa [LoopSource.rescope, LoopSource.paths] using h

end

mutual

theorem Node.scope_occurrences (f : Scoping) (loops : List Text) : ∀ n : Node, n.rescope f loops = n →
    ∀ o ∈ n.occurrences loops, o.path.scope = f o.loops o.path.base
  | .text _, _ => by simp [Node.occurrences]
  | .comment _, _ => by simp [Node.occurrences]
  | .unsupported _, _ => by simp [Node.occurrences]
  | .var v, h => by
    rw [Node.rescope, Node.var.injEq] at h
    have hpath : v.path.rescope (f loops) = v.path := congrArg Variable.path h
    exact occurrencesOf_scope (by simpa using hpath)
  | .ifBlock c tag body more, h => by
    simp only [Node.rescope, Node.ifBlock.injEq, true_and] at h
    obtain ⟨hc, hbody, hmore⟩ := h
    refine List.forall_mem_append.2 ⟨occurrencesOf_scope (Expr.paths_rescope hc), List.forall_mem_append.2 ⟨?_, ?_⟩⟩
    · exact Template.scope_occurrences f loops body hbody
    · exact Alternative.scope_occurrences f loops more hmore
  | .forBlock name source tag body, h => by
    simp only [Node.rescope, Node.forBlock.injEq, true_and] at h
    obtain ⟨hsource, hbody⟩ := h
    -- the loop binds its variable in the body, not in what it runs over
    refine List.forall_mem_append.2 ⟨occurrencesOf_scope (LoopSource.paths_rescope hsource), ?_⟩
    exact Template.scope_occurrences f (name :: loops) body hbody

theorem Alternative.scope_occurrences (f : Scoping) (loops : List Text) : ∀ a : Alternative, a.rescope f loops = a →
    ∀ o ∈ a.occurrences loops, o.path.scope = f o.loops o.path.base
  | .endif, _ => by simp [Alternative.occurrences]
  | .otherwise body, h => by
    simp only [Alternative.rescope, Alternative.otherwise.injEq] at h
    exact Template.scope_occurrences f loops body h
  | .elseif c tag body more, h => by
    simp only [Alternative.rescope, Alternative.elseif.injEq, true_and] at h
    obtain ⟨hc, hbody, hmore⟩ := h
    refine List.forall_mem_append.2 ⟨occurrencesOf_scope (Expr.paths_rescope hc), List.forall_mem_append.2 ⟨?_, ?_⟩⟩
    · exact Template.scope_occurrences f loops body hbody
    · exact Alternative.scope_occurrences f loops more hmore

/-- In a template that keeps its scopes when they are given anew, every path has the scope that the
loops around it give. -/
theorem Template.scope_occurrences (f : Scoping) (loops : List Text) : ∀ t : Template,
    Template.rescope f loops t = t → ∀ o ∈ Template.occurrences loops t, o.path.scope = f o.loops o.path.base
  | [], _ => by simp [Template.occurrences]
  | n :: t, h => by
    simp only [Template.rescope, List.cons.injEq] at h
    refine List.forall_mem_append.2 ⟨?_, ?_⟩
    · exact Node.scope_occurrences f loops n h.1
    · exact Template.scope_occurrences f loops t h.2

end

/-! ## Templates that were read -/

/-- **Scopes are lexical**: a path is bound by a loop exactly if its base name is the variable of a
loop around it, or the helper inside any loop; any other path is in the namespace exactly if its base
name is the namespace, and a parameter otherwise. -/
theorem Template.scopes_lexical {source ns : Text} {t : Template} (h : Template.parse source ns = .ok t) :
    ∀ o ∈ Template.occurrences [] t,
      (o.path.scope = .loopLocal ↔
        o.path.base ∈ o.loops ∨ o.loops ≠ [] ∧ o.path.base = Dialect.loopHelper) ∧
      (o.path.scope = .namespaced ↔
        ¬(o.path.base ∈ o.loops ∨ o.loops ≠ [] ∧ o.path.base = Dialect.loopHelper) ∧ o.path.base = ns) ∧
      (o.path.scope = .param ↔
        ¬(o.path.base ∈ o.loops ∨ o.loops ≠ [] ∧ o.path.base = Dialect.loopHelper) ∧ o.path.base ≠ ns) := by
  intro o ho
  obtain ⟨-, -, -, -, hscopes⟩ := Template.pieces_of_parse h
  have hscope := Template.scope_occurrences _ [] t hscopes o ho
  rw [Scoping.lexical_eq] at hscope
  change _ = if Captures o.loops o.path.base then _ else _ at hscope
  change (_ ↔ Captures o.loops o.path.base) ∧ (_ ↔ ¬Captures o.loops o.path.base ∧ _) ∧
    (_ ↔ ¬Captures o.loops o.path.base ∧ _)
  by_cases hloop : Captures o.loops o.path.base
  · simp [hscope, hloop]
  · rw [if_neg hloop] at hscope
    by_cases hns : o.path.base = ns
    · rw [if_pos hns] at hscope
      simp only [hscope, hloop, not_false_eq_true, true_and, ne_eq]
      simp [hns]
    · rw [if_neg hns] at hscope
      simp only [hscope, hloop, not_false_eq_true, true_and, ne_eq]
      simp [hns]

/-- A loop over a collection of its own name, a loop inside it that binds the name once more, and
paths of that name in both, between their ends and behind them. -/
theorem Template.scopes_lexical_shadowing : ∃ t,
    (Template.parse (Delim.tag.enclose "for x in x".toList ++ Delim.tag.enclose "for x in x.ys".toList ++
      Delim.tag.enclose "if not (x|upper == loop.index) or params".toList ++ Delim.tag.enclose "endif".toList ++
      Delim.tag.enclose "endfor".toList ++ Delim.var.enclose "x".toList ++ Delim.tag.enclose "endfor".toList ++
      Delim.var.enclose "x".toList ++ Delim.var.enclose "loop".toList) "params".toList = .ok t ∧
    (Template.occurrences [] t).map (fun o => (o.path.base, o.loops.length, o.path.scope)) =
      [("x".toList, 0, .param), ("x".toList, 1, .loopLocal), ("x".toList, 2, .loopLocal),
        ("loop".toList, 2, .loopLocal), ("params".toList, 2, .namespaced), ("x".toList, 1, .loopLocal),
        ("x".toList, 0, .param), ("loop".toList, 0, .param)]) ∧
    ∀ o ∈ Template.occurrences [] t,
      (o.path.scope = .loopLocal ↔
        o.path.base ∈ o.loops ∨ o.loops ≠ [] ∧ o.path.base = Dialect.loopHelper) ∧
      (o.path.scope = .namespaced ↔
        ¬(o.path.base ∈ o.loops ∨ o.loops ≠ [] ∧ o.path.base = Dialect.loopHelper) ∧ o.path.base = "params".toList) ∧
      (o.path.scope = .param ↔
        ¬(o.path.base ∈ o.loops ∨ o.loops ≠ [] ∧ o.path.base = Dialect.loopHelper) ∧
          o.path.base ≠ "params".toList) := by
  refine (exists_ok_of_toOption ?_).imp fun t h => ⟨h, Template.scopes_lexical h.1⟩
  decide +kernel

end MailDialect
