import MailDialect.Proofs.Passes

/-!
# Strict settings

Strict settings change what becomes of a pass that has something to report, and nothing else: a strict
migration is a permissive one whose diagnostics are then held against it (`migrate_strict`). Through both
passes of a conversion this means that strict settings let exactly the clean conversions through, and that
the first pass with diagnostics is the one whose diagnostics the failure carries (`convert_strict`).
-/

namespace MailDialect

/-! ## One pass -/

/-- Holds its diagnostics against a migration. -/
def Migration.demandClean (m : Migration) : Except Failure Migration :=
  if m.isClean then .ok m else .error (.unconvertible m.diagnostics)

section
variable {ns source : Text} {m : Migration}

theorem Migration.isClean_iff : m.isClean ↔ m.diagnostics = [] :=
  List.isEmpty_iff

/-- **A strict migration is a permissive one that has to be clean.** -/
theorem migrate_strict (ns source : Text) :
    migrate ⟨true, ns⟩ source = migrate ⟨false, ns⟩ source >>= Migration.demandClean := by
  have hvalidate : Settings.validate ⟨true, ns⟩ = Settings.validate ⟨false, ns⟩ := rfl
  rw [migrate, migrate, hvalidate]
  cases Settings.validate ⟨false, ns⟩ with
  | error e => rfl
  | ok u =>
    simp only [bind, Except.bind]
    cases Template.parse source ns with
    | error e => rfl
    | ok t =>
      by_cases hclean : Template.diagnostics t = []
      · simp [hclean, Migration.demandClean, Migration.isClean, pure, Except.pure]
      · simp [hclean, Migration.demandClean, Migration.isClean, pure, Except.pure, throw, throwThe,
          MonadExceptOf.throw]

theorem migrate_strict_eq_ok_iff :
    migrate ⟨true, ns⟩ source = .ok m ↔ migrate ⟨false, ns⟩ source = .ok m ∧ m.diagnostics = [] := by
  rw [migrate_strict, ← Migration.isClean_iff]
  cases migrate ⟨false, ns⟩ source with
  | error e => simp [bind, Except.bind]
  | ok m' =>
    simp only [bind, Except.bind, Migration.demandClean, Except.ok.injEq]
    split
    · rename_i hclean
      constructor
      · rintro ⟨⟩
        exact ⟨rfl, hclean⟩
      · rintro ⟨rfl, -⟩
        rfl
    · rename_i hunclean
      constructor
      · rintro ⟨⟩
      · rintro ⟨rfl, hclean⟩
        exact (hunclean hclean).elim

theorem migrate_strict_eq_error (h : migrate ⟨false, ns⟩ source = .ok m) (hreports : m.diagnostics ≠ []) :
    migrate ⟨true, ns⟩ source = .error (.unconvertible m.diagnostics) := by
  have hunclean : ¬m.isClean := by rwa [Migration.isClean_iff]
  rw [migrate_strict, h]
  exact if_neg hunclean

end

/-! ## Both passes -/

section
variable {render : Renderer} {settings : Settings} {source html : Text} {before : Migration} {e : Failure}

/-- A conversion whose first pass fails comes to no rendering. -/
theorem convert_of_before_error (h : migrate settings source = .error e) :
    renderedMarkup? settings source = none ∧ ∀ render, convert render settings source = .error e := by
  constructor
  · rw [renderedMarkup?, h]
  · intro render
    rw [convert, h]
    rfl

theorem convert_of_after_error (hbefore : migrate settings source = .ok before)
    (hrender : render before.output = .ok html) (h : migrate settings html = .error e) :
    convert render settings source = .error e := by
  simp only [convert, hbefore, hrender, h, Except.mapError, bind, Except.bind]

theorem convert_eq_ok_iff {c : Conversion} : convert render settings source = .ok c ↔
    ∃ before html after, migrate settings source = .ok before ∧ render before.output = .ok html ∧
      migrate settings html = .ok after ∧
      c = ⟨after.output, Preview.ofSource source, Diagnostic.merge before.diagnostics after.diagnostics⟩ := by
  refine ⟨convert_eq_ok, ?_⟩
  rintro ⟨before, html, after, hbefore, hrender, hafter, rfl⟩
  simp only [convert, hbefore, hrender, hafter, Except.mapError, bind, Except.bind, pure, Except.pure]

/-- No diagnostic is merged away altogether. -/
theorem Diagnostic.merge_eq_nil_iff {first second : List Diagnostic} :
    Diagnostic.merge first second = [] ↔ first = [] ∧ second = [] := by
  constructor
  · intro h
    rw [Diagnostic.merge_eq, List.append_eq_nil_iff] at h
    obtain ⟨rfl, hnew⟩ := h
    refine ⟨rfl, ?_⟩
    cases second with
    | nil => rfl
    | cons d ds =>
      rw [Diagnostic.unseen, List.filter_cons_of_pos (by simp), List.eraseDupsBy_cons] at hnew
      cases hnew
  · rintro ⟨rfl, rfl⟩
    rfl

end

/-- **Strict settings let exactly the clean conversions through.** Where a permissive conversion has
something to report, the strict one fails with all that the first pass reports, before anything is
rendered, and if the first pass reports nothing, with all that the second pass reports. -/
theorem convert_strict (render : Renderer) (ns source : Text) :
    (∀ c, convert render ⟨true, ns⟩ source = .ok c ↔
      convert render ⟨false, ns⟩ source = .ok c ∧ c.diagnostics = []) ∧
    ∀ c, convert render ⟨false, ns⟩ source = .ok c → c.diagnostics ≠ [] →
      ∃ before html after, migrate ⟨false, ns⟩ source = .ok before ∧ render before.output = .ok html ∧
        migrate ⟨false, ns⟩ html = .ok after ∧
        (before.diagnostics ≠ [] → renderedMarkup? ⟨true, ns⟩ source = none ∧
          ∀ other, convert other ⟨true, ns⟩ source = .error (.unconvertible before.diagnostics)) ∧
        (before.diagnostics = [] →
          convert render ⟨true, ns⟩ source = .error (.unconvertible after.diagnostics)) := by
  constructor
  · intro c
    simp only [convert_eq_ok_iff, migrate_strict_eq_ok_iff]
    constructor
    · rintro ⟨before, html, after, ⟨hbefore, hclean⟩, hrender, ⟨hafter, hclean'⟩, rfl⟩
      exact ⟨⟨before, html, after, hbefore, hrender, hafter, rfl⟩,
        Diagnostic.merge_eq_nil_iff.2 ⟨hclean, hclean'⟩⟩
    · rintro ⟨⟨before, html, after, hbefore, hrender, hafter, rfl⟩, hclean⟩
      obtain ⟨hclean, hclean'⟩ := Diagnostic.merge_eq_nil_iff.1 hclean
      exact ⟨before, html, after, ⟨hbefore, hclean⟩, hrender, ⟨hafter, hclean'⟩, rfl⟩
  · intro c h hreports
    obtain ⟨before, html, after, hbefore, hrender, hafter, rfl⟩ := convert_eq_ok h
    refine ⟨before, html, after, hbefore, hrender, hafter, ?_, ?_⟩
    · intro hfirst
      exact convert_of_before_error (migrate_strict_eq_error hbefore hfirst)
    · intro hfirst
      have hsecond : after.diagnostics ≠ [] := fun hnone =>
        hreports (Diagnostic.merge_eq_nil_iff.2 ⟨hfirst, hnone⟩)
      exact convert_of_after_error (migrate_strict_eq_ok_iff.2 ⟨hbefore, hfirst⟩) hrender
        (migrate_strict_eq_error hafter hsecond)

/-- The renderer puts in a variable with two unsupported filters. The permissive conversion reports only the
first of them, but the strict one fails with all that the second pass has to say. -/
theorem convert_strict_injected : ∃ c,
    (convert (fun markup => .ok (markup ++ Delim.var.enclose "x|raw|trans".toList)) ⟨false, "params".toList⟩
        (Delim.var.enclose "y".toList) = .ok c ∧
      c.diagnostics = [⟨.filter "raw".toList, Delim.var.enclose "x|raw|trans".toList, 12⟩]) ∧
    ∃ before html after, migrate ⟨false, "params".toList⟩ (Delim.var.enclose "y".toList) = .ok before ∧
      .ok (before.output ++ Delim.var.enclose "x|raw|trans".toList) = (.ok html : Except Text Text) ∧
      migrate ⟨false, "params".toList⟩ html = .ok after ∧
      (before.diagnostics ≠ [] → renderedMarkup? ⟨true, "params".toList⟩ (Delim.var.enclose "y".toList) = none ∧
        ∀ other, convert other ⟨true, "params".toList⟩ (Delim.var.enclose "y".toList) =
          .error (.unconvertible before.diagnostics)) ∧
      (before.diagnostics = [] →
        convert (fun markup => .ok (markup ++ Delim.var.enclose "x|raw|trans".toList)) ⟨true, "params".toList⟩
          (Delim.var.enclose "y".toList) = .error (.unconvertible after.diagnostics)) := by
  refine (exists_ok_of_toOption ?_).imp fun c h =>
    ⟨h, (convert_strict _ _ _).2 c h.1 (by rw [h.2]; exact List.cons_ne_nil _ _)⟩
  decide +kernel

end MailDialect
