import MailDialect.Proofs.Parsing

/-!
# Strings written again

A value that is written as a string literal is scanned as one token with that value, and the token is
the whole literal, whatever follows. A literal that was read can be written again in its place: the
new one closes no directive that the old one did not close. Main statement:
`Scanner.rereads_written_string`.
-/

namespace MailDialect

open Unicode

/-- A closing delimiter is absent exactly if it stands nowhere in the text. -/
theorem Delim.absent_iff_not_infix {d : Delim} {text : Text} : d.Absent text ↔ ¬d.closer <:+: text := by
  constructor
  · intro h hpart
    have hpair : d.Absent d.closer := List.IsChain.infix h hpart
    simp [Delim.Absent, Delim.closer] at hpair
  · intro h
    induction text with
    | nil => exact d.absent_nil
    | cons c text ih =>
      refine Delim.absent_cons.2 ⟨fun hc hhead => h ?_, ih fun hpart => h (hpart.trans (List.suffix_cons c text).isInfix)⟩
      obtain ⟨rest, rfl⟩ := List.head?_eq_some_iff.1 hhead
      exact ⟨[], rest, by simp [Delim.closer, hc]⟩

/-- A value that is read from a literal brings no delimiter into a literal that it is written as. -/
theorem Lexeme.absent_write {d : Delim} {afterDot : Bool} {text value : Text} {l : Lexeme}
    (h : Lexeme.read afterDot text = .ok l) (hkind : l.kind = .string value) (habsent : d.Absent l.text) :
    d.Absent (Quoted.write value) := by
  have hfits := Lexeme.fits h
  rw [hkind] at hfits
  obtain ⟨quote, rest, found, -, hfound, htext, rfl⟩ := hfits
  rw [htext] at habsent
  exact Quoted.absent_write (Quoted.absent_value hfound (Delim.absent_cons.1 habsent).2)

/-- A scanner that comes to a written string reads all of it. -/
theorem Scanner.step_write {s : Scanner} {d : Delim} {value rest after : Text} (hd : d ≠ .comment)
    (hs : s.region = .directive d (Quoted.write value ++ rest) after) :
    s.step = .token ⟨.string value, Quoted.write value, s.offset⟩
      ⟨.directive d rest after, s.offset + Text.byteSize (Quoted.write value), false⟩ := by
  obtain ⟨c, tail, htext, hblank⟩ : ∃ c tail, Quoted.write value ++ rest = c :: tail ∧ isWhiteSpace c = false := by
    refine ⟨_, _, rfl, ?_⟩
    rcases Quoted.isQuote_quoteFor value with hq | hq <;> rw [hq] <;> decide
  have hread : Lexeme.read s.afterDot (Quoted.write value ++ rest) = .ok ⟨.string value, Quoted.write value, rest⟩ :=
    Lexeme.read_string value
  rw [htext] at hs hread
  rw [Scanner.step_eq_stepDirective hd hs, Scanner.stepDirective]
  simp only [List.takeWhile_cons, List.dropWhile_cons, hblank, Bool.false_eq_true, if_false, hread]
  rfl

/-- **Writing a string is undone by scanning it**, and a literal that is written anew holds no closing
delimiter that it did not hold before. -/
theorem Scanner.rereads_written_string :
    (∀ (s : Scanner) (d : Delim) (value rest after : Text), d ≠ .comment →
      s.region = .directive d (Quoted.write value ++ rest) after →
      s.step = .token ⟨.string value, Quoted.write value, s.offset⟩
        ⟨.directive d rest after, s.offset + Text.byteSize (Quoted.write value), false⟩) ∧
    ∀ (afterDot : Bool) (text value : Text) (l : Lexeme), Lexeme.read afterDot text = .ok l →
      l.kind = .string value → ∀ d : Delim, ¬d.closer <:+: l.text → ¬d.closer <:+: Quoted.write value := by
  refine ⟨fun s d value rest after hd hs => Scanner.step_write hd hs, fun afterDot text value l h hkind d hclear => ?_⟩
  exact Delim.absent_iff_not_infix.1 (Lexeme.absent_write h hkind (Delim.absent_iff_not_infix.2 hclear))

/-- Both kinds of quote, a backslash before a line break, a run of backslashes at the end, and a closing
delimiter right behind the literal; then a literal whose escapes keep its braces and percent signs apart. -/
theorem Scanner.rereads_written_string_backslashes :
    (Scanner.mk (.directive .var (Quoted.write "it's \"C:\\dir\" \\\n\\\\".toList ++ "\x7d\x7d".toList) []) 2 true).step =
      .token ⟨.string "it's \"C:\\dir\" \\\n\\\\".toList, Quoted.write "it's \"C:\\dir\" \\\n\\\\".toList, 2⟩
        ⟨.directive .var "\x7d\x7d".toList [],
          2 + Text.byteSize (Quoted.write "it's \"C:\\dir\" \\\n\\\\".toList), false⟩ ∧
    (∃ l, Lexeme.read false "'%\\\"\x7d\\\\\x7d'|".toList = .ok l ∧ l.kind = .string "%\"\x7d\\\x7d".toList ∧
      ¬Delim.tag.closer <:+: l.text) ∧
    ¬Delim.tag.closer <:+: Quoted.write "%\"\x7d\\\x7d".toList := by
  obtain ⟨hscan, hwrite⟩ := Scanner.rereads_written_string
  refine ⟨hscan _ .var _ _ _ (by decide) rfl, ?_⟩
  obtain ⟨l, hread, hfacts⟩ : ∃ l, Lexeme.read false "'%\\\"\x7d\\\\\x7d'|".toList = .ok l ∧
      (l.kind, decide (Delim.tag.closer <:+: l.text)) = (.string "%\"\x7d\\\x7d".toList, false) :=
    exists_ok_of_toOption (by decide +kernel)
  obtain ⟨hkind, hclear⟩ := Prod.mk.inj hfacts
  have hclear := of_decide_eq_false hclear
  exact ⟨⟨l, hread, hkind, hclear⟩, hwrite false _ _ l hread hkind .tag hclear⟩

end MailDialect
