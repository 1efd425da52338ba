import MailDialect.Migration
import MailDialect.Proofs.Printing

/-!
# What is written can be brought over again

The text that a template is written as can be read, and reads as the normal form of the template
(`Template.parse_print`), which is written as the template is (`Template.parse_written`). So bringing a
text into the Brevo dialect a second time changes nothing (`migrate_output`).
-/

namespace MailDialect

/-! ## Reading what was written -/

/-- **A written template reads as its normal form**, with the scopes that belong there; places apart. -/
theorem Template.parse_print {source ns : Text} {t : Template} (hns : IsName ns)
    (h : Template.parse source ns = .ok t) : ∃ t', Template.parse (Template.print ns t) ns = .ok t' ∧
      Template.unplaced t' = Template.unplaced (Template.rescope (.lexical ns) [] (Template.norm ns t)) := by
  obtain ⟨ps, hrow, -, hblocks, -⟩ := Template.pieces_of_parse h
  obtain ⟨qs, hkin, htext, hnorm⟩ := rewrites_blocks hns hblocks hrow.1
  obtain ⟨t', hparse, hplaces⟩ := Template.parse_of_pieces (hrow.kin hkin) hnorm ns
  rw [htext] at hparse
  exact ⟨t', hparse, hplaces⟩

/-- What is written can be read again, and is written and reported as before. -/
theorem Template.parse_written {source ns : Text} {t : Template} (hns : IsName ns)
    (h : Template.parse source ns = .ok t) : ∃ t', Template.parse (Template.print ns t) ns = .ok t' ∧
      Template.print ns t' = Template.print ns t ∧
      (Template.diagnostics t').map Diagnostic.content = (Template.diagnostics t).map Diagnostic.content := by
  obtain ⟨t', hparse, hplaces⟩ := Template.parse_print hns h
  obtain ⟨-, -, -, -, hscopes⟩ := Template.pieces_of_parse h
  refine ⟨t', hparse, ?_, ?_⟩
  · rw [← Template.print_unplaced, hplaces, Template.print_unplaced, Template.print_norm _ _ _ hscopes]
  · rw [← Template.diagnostics_unplaced, hplaces, Template.diagnostics_unplaced, Template.diagnostics_norm]

/-- Reading what a template is written as gives its normal form: the same nodes, with the namespace
before every parameter of a directive that was written anew, and every marker and default gone, a
default with an effect in favour of a filter. Only scopes and places are left out of account. -/
theorem Template.print_reads_as_norm {source ns : Text} {t : Template} (hword : ns.isWord)
    (hfree : Keyword.ofWord? ns = none) (h : Template.parse source ns = .ok t) :
    ∃ t', Template.parse (Template.print ns t) ns = .ok t' ∧
      Template.unplaced (Template.unscoped t') = Template.unplaced (Template.unscoped (Template.norm ns t)) := by
  obtain ⟨t', hparse, hplaces⟩ := Template.parse_print ⟨hword, hfree⟩ h
  refine ⟨t', hparse, ?_⟩
  rw [Template.unscoped, Template.unscoped, Template.unplaced_rescope, hplaces, ← Template.unplaced_rescope,
    Template.rescope_rescope]

/-- An `elseif` over a negative number, and a default in which the other quotes stand. -/
theorem Template.print_reads_as_norm_elseif : ∃ t,
    (Template.parse (Delim.tag.enclose "if a".toList ++ Delim.tag.enclose "else if not b == -1.5".toList ++
      Delim.var.enclose "var:c.in:'\"'".toList ++ Delim.tag.enclose "endif".toList) "params".toList = .ok t ∧
    Template.print "params".toList t = Delim.tag.enclose " if params.a ".toList ++
      Delim.tag.enclose " elif not params.b == -1.5 ".toList ++
      Delim.var.enclose "params.c.in|default:'\"'".toList ++ Delim.tag.enclose " endif ".toList) ∧
    ∃ t', Template.parse (Template.print "params".toList t) "params".toList = .ok t' ∧
      Template.unplaced (Template.unscoped t') =
        Template.unplaced (Template.unscoped (Template.norm "params".toList t)) := by
  refine (exists_ok_of_toOption ?_).imp fun t h =>
    ⟨h, Template.print_reads_as_norm (by decide +kernel) (by decide +kernel) h.1⟩
  decide +kernel

/-! ## Migrations -/

theorem Settings.validate_eq_ok_iff {settings : Settings} : settings.validate = .ok () ↔ settings.ns.isWord := by
  unfold Settings.validate
  split <;> simp_all

/-- A text is brought over as its template is written, unless strict settings forbid its diagnostics. -/
theorem migrate_eq_ok_iff {settings : Settings} {source : Text} {m : Migration} :
    migrate settings source = .ok m ↔ settings.ns.isWord ∧ ∃ t, Template.parse source settings.ns = .ok t ∧
      (settings.strict → Template.diagnostics t = []) ∧
      m = ⟨Template.print settings.ns t, Template.diagnostics t⟩ := by
  rw [← Settings.validate_eq_ok_iff, migrate]
  cases settings.validate with
  | error e => simp [bind, Except.bind]
  | ok u =>
    cases Template.parse source settings.ns with
    | error e => simp [bind, Except.bind]
    | ok t =>
      simp only [bind, Except.bind, pure, Except.pure, throw, throwThe, MonadExceptOf.throw, Except.ok.injEq,
        exists_eq_left', true_and]
      split
      · rename_i hforbidden
        simp_all
      · rename_i hallowed
        simp only [Except.ok.injEq]
        constructor
        · rintro rfl
          exact ⟨by simpa using hallowed, rfl⟩
        · exact fun h => h.2.symm

/-- **What was brought over is brought over as it is**: the same text again, with the same diagnostics. -/
theorem migrate_output {settings : Settings} {source : Text} {m : Migration}
    (hfree : Keyword.ofWord? settings.ns = none) (h : migrate settings source = .ok m) :
    ∃ m', migrate settings m.output = .ok m' ∧ m'.output = m.output ∧
      m'.diagnostics.map Diagnostic.content = m.diagnostics.map Diagnostic.content := by
  obtain ⟨hword, t, hparse, hstrict, rfl⟩ := migrate_eq_ok_iff.1 h
  obtain ⟨t', hparse', hprint, hdiagnostics⟩ := Template.parse_written ⟨hword, hfree⟩ hparse
  refine ⟨_, migrate_eq_ok_iff.2 ⟨hword, t', hparse', fun hs => ?_, rfl⟩, hprint, hdiagnostics⟩
  have hlength := congrArg List.length hdiagnostics
  simpa [hstrict hs] using hlength

/-- The namespace may be the loop helper and a loop variable at once. -/
theorem migrate_output_loop_namespace : ∃ m,
    (migrate ⟨false, Dialect.loopHelper⟩ (Delim.tag.enclose "for loop in items".toList ++
      Delim.var.enclose "var:loop.0:\"it's\"".toList ++ Delim.var.enclose " x|raw ".toList ++
      Delim.tag.enclose "endfor".toList) = .ok m ∧
    m = ⟨Delim.tag.enclose " for loop in loop.items ".toList ++
      Delim.var.enclose "loop.0|default:\"it's\"".toList ++ Delim.var.enclose " x|raw ".toList ++
      Delim.tag.enclose " endfor ".toList, [⟨.filter "raw".toList, Delim.var.enclose " x|raw ".toList, 42⟩]⟩) ∧
    ∃ m', migrate ⟨false, Dialect.loopHelper⟩ m.output = .ok m' ∧ m'.output = m.output ∧
      m'.diagnostics.map Diagnostic.content = m.diagnostics.map Diagnostic.content := by
  refine (exists_ok_of_toOption (f := id) ?_).imp fun m h => ⟨h, migrate_output (by decide) h.1⟩
  decide +kernel

end MailDialect
