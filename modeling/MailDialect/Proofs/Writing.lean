import MailDialect.Proofs.Grammar
import MailDialect.Proofs.Scan

/-!
# What is written reads back

`Spells` says of a written text that it is read as tokens with some property, wherever it stands,
as long as what follows does not run on, and that it can stand inside a directive without closing
it. The operands of a directive are spelled by the texts they are written as: literals
(`spells_literal`), filters (`spells_filters`), and paths (`spells_dotted`).
-/

namespace MailDialect

open Unicode

/-! ## Texts that close nothing -/

/-- A text holds no closing delimiter of `d`, and none comes about where it meets another such text. -/
def Clear (d : Delim) (text : Text) : Prop :=
  d.Absent text ∧ text.head? ≠ some '}' ∧ text.getLast? ≠ some '}'

section
variable {d : Delim} {a b : Text}

theorem Clear.append (ha : Clear d a) (hb : Clear d b) : Clear d (a ++ b) := by
  refine ⟨List.isChain_append.2 ⟨ha.1, hb.1, ?_⟩, ?_, ?_⟩
  · rintro x - y hy ⟨-, rfl⟩; exact hb.2.1 hy
  · cases a with
    | nil => exact hb.2.1
    | cons c a => exact ha.2.1
  · rw [List.getLast?_append]
    cases hlast : b.getLast? with
    | none => exact ha.2.2
    | some c => rw [← hlast]; simpa [hlast] using hb.2.2

theorem clear_of_forall_ne (h : ∀ c ∈ a, c ≠ '}') : Clear d a := by
  refine ⟨?_, fun hhead => h _ (List.mem_of_mem_head? hhead) rfl, fun hlast => h _ (List.mem_of_getLast? hlast) rfl⟩
  induction a with
  | nil => exact d.absent_nil
  | cons c a ih =>
    refine Delim.absent_cons.2 ⟨fun _ hhead => ?_, ih fun c hc => h c (List.mem_cons_of_mem _ hc)⟩
    exact h _ (List.mem_cons_of_mem _ (List.mem_of_mem_head? hhead)) rfl

theorem Clear.closes (h : Clear d a) : d.Closes a := by
  refine List.isChain_append.2 ⟨h.1, List.isChain_singleton _, ?_⟩
  rintro x hx y hy ⟨rfl, rfl⟩
  cases d with
  | var => exact h.2.2 hx
  | tag | comment => simp [Delim.mark] at hy

end

/-! ## Spelled texts -/

/-- Wherever `text` stands, a point before it or not as `b` says, and before any text with `F`, it is
read as tokens with `P`; `b'` tells whether they end with a point. -/
structure Spells (d : Delim) (b b' : Bool) (F : Text → Prop) (text : Text) (P : List Token → Prop) : Prop where
  clear : Clear d text
  lexes : ∀ offset, ∃ ts, P ts ∧ ∀ rest more, F rest →
    Lexes b' (offset + Text.byteSize text) rest more → Lexes b offset (text ++ rest) (ts ++ more)

section
variable {d : Delim} {b b' b'' : Bool} {F G : Text → Prop} {x y : Text} {P Q : List Token → Prop}

theorem Spells.append (h : Spells d b b' F x P) (h' : Spells d b' b'' G y Q) (hmeet : ∀ rest, G rest → F (y ++ rest)) :
    Spells d b b'' G (x ++ y) fun ts => ∃ us vs, ts = us ++ vs ∧ P us ∧ Q vs := by
  refine ⟨h.clear.append h'.clear, fun offset => ?_⟩
  obtain ⟨us, hus, hlex⟩ := h.lexes offset
  obtain ⟨vs, hvs, hlex'⟩ := h'.lexes (offset + Text.byteSize x)
  refine ⟨us ++ vs, ⟨us, vs, rfl, hus, hvs⟩, fun rest more hrest hmore => ?_⟩
  rw [List.append_assoc, List.append_assoc]
  refine hlex _ _ (hmeet rest hrest) (hlex' _ _ hrest ?_)
  simpa [Nat.add_assoc] using hmore

theorem Spells.imp (h : Spells d b b' F x P) (himp : ∀ ts, P ts → Q ts) : Spells d b b' F x Q := by
  refine ⟨h.clear, fun offset => ?_⟩
  obtain ⟨ts, hts, hlex⟩ := h.lexes offset
  exact ⟨ts, himp ts hts, hlex⟩

theorem Spells.before (h : Spells d b b' F x P) (himp : ∀ rest, G rest → F rest) : Spells d b b' G x P := by
  refine ⟨h.clear, fun offset => ?_⟩
  obtain ⟨ts, hts, hlex⟩ := h.lexes offset
  exact ⟨ts, hts, fun rest more hrest hmore => hlex rest more (himp rest hrest) hmore⟩

/-- Any text may follow. -/
def Anything (_ : Text) : Prop := True

theorem spells_nil : Spells d b b Anything [] (· = []) :=
  ⟨clear_of_forall_ne (by simp), fun _ => ⟨[], rfl, fun _ _ _ hmore => by simpa using hmore⟩⟩

theorem Lexes.blank_cons {offset : Nat} {c : Char} {rest : Text} {ts : List Token} (hc : isWhiteSpace c)
    (h : Lexes b (offset + Text.byteSize [c]) rest ts) : Lexes b offset (c :: rest) ts := by
  cases h with
  | blank hgap => exact .blank (List.forall_mem_cons.2 ⟨hc, hgap⟩)
  | @lexeme _ _ gap text l ts hgap hhead hread hmore =>
    have hsize : offset + Text.byteSize [c] + Text.byteSize gap = offset + Text.byteSize (c :: gap) := by
      simp [Nat.add_assoc]
    rw [hsize] at hmore ⊢
    rw [← List.cons_append]
    exact .lexeme (List.forall_mem_cons.2 ⟨hc, hgap⟩) hhead hread hmore

theorem spells_blank : Spells d b b Anything [' '] (· = []) :=
  ⟨clear_of_forall_ne (by simp), fun _ => ⟨[], rfl, fun _ _ _ hmore => .blank_cons (by decide) hmore⟩⟩

/-- The tokens are one token of this kind and text. -/
def One (kind : Token.Kind) (text : Text) (ts : List Token) : Prop := ∃ o, ts = [⟨kind, text, o⟩]

/-- A lexeme that is read as a whole. -/
theorem spells_lexeme {kind : Token.Kind} (hclear : Clear d x) (hblank : ∀ c ∈ x.head?, isWhiteSpace c = false)
    (hne : x ≠ []) (hread : ∀ rest, F rest → Lexeme.read b (x ++ rest) = .ok ⟨kind, x, rest⟩)
    (hdot : (kind == .punct .dot) = b') : Spells d b b' F x (One kind x) := by
  subst hdot
  refine ⟨hclear, fun offset => ⟨_, ⟨offset, rfl⟩, fun rest more hrest hmore => ?_⟩⟩
  have hhead : ∀ c ∈ (x ++ rest).head?, isWhiteSpace c = false := by
    obtain ⟨c, tail, rfl⟩ := List.exists_cons_of_ne_nil hne
    simpa using hblank
  have h : Lexes b offset ([] ++ (x ++ rest)) (⟨kind, x, offset + Text.byteSize []⟩ :: more) :=
    .lexeme (by simp) hhead (hread rest hrest) (by simpa using hmore)
  simpa using h

theorem spells_punct {c : Char} {p : Punct} (hc : c ∈ ['.', ':', '|', ',', '(', ')', '-'])
    (hp : Punct.ofChar? c = some p) : Spells d b (p == .dot) Anything [c] (One (.punct p) [c]) := by
  simp only [List.mem_cons, List.not_mem_nil, or_false] at hc
  rcases hc with rfl | rfl | rfl | rfl | rfl | rfl | rfl <;> cases hp <;>
    exact spells_lexeme (clear_of_forall_ne (by simp)) (by rintro c ⟨⟩; rfl) (by simp) (fun _ _ => rfl) rfl

theorem clear_of_isWordChar (h : ∀ c ∈ x, isWordChar c) : Clear d x :=
  clear_of_forall_ne fun c hc => ne_of_isWordChar (h c hc) (by decide)

theorem spells_word (hx : x.isWord) : Spells d b false EndsWord x (One (Lexeme.wordKind x) x) := by
  obtain ⟨hne, hchars⟩ := chars_of_isWord hx
  refine spells_lexeme (clear_of_isWordChar hchars) ?_ hne (fun _ => Lexeme.read_word hx) ?_
  · exact fun c hc => not_isWhiteSpace_of_isWordChar (hchars c (List.mem_of_mem_head? hc))
  · unfold Lexeme.wordKind
    split <;> rfl

theorem not_isWhiteSpace_of_isDigit {c : Char} (h : c.isDigit) : isWhiteSpace c = false :=
  not_isWhiteSpace_of_isWordChar (isWordChar_of_isDigit h)

theorem spells_segment (hx : IsSegment x) : Spells d true false EndsWord x (One .number x) := by
  refine spells_lexeme (clear_of_isWordChar fun c hc => isWordChar_of_isDigit (hx.2 c hc)) ?_ hx.1
    (fun _ => Lexeme.read_segment hx) rfl
  exact fun c hc => not_isWhiteSpace_of_isDigit (hx.2 c (List.mem_of_mem_head? hc))

theorem spells_number (hx : IsNumber x) : Spells d false false EndsLexeme x (One .number x) := by
  have hread : ∀ rest, EndsLexeme rest → Lexeme.read false (x ++ rest) = .ok ⟨.number, x, rest⟩ :=
    fun _ => Lexeme.read_number hx
  obtain ⟨whole, hne, hall, hfrac⟩ := hx
  have hchars : ∀ c ∈ x, isWordChar c ∨ c = '.' := by
    rcases hfrac with rfl | ⟨frac, -, hfall, rfl⟩
    · exact fun c hc => .inl (isWordChar_of_isDigit (hall c hc))
    · simp only [List.mem_append, List.mem_cons]
      rintro c (hc | rfl | hc)
      · exact .inl (isWordChar_of_isDigit (hall c hc))
      · exact .inr rfl
      · exact .inl (isWordChar_of_isDigit (hfall c hc))
  obtain ⟨c, tail, rfl⟩ := List.exists_cons_of_ne_nil hne
  have hhead : x.head? = some c := by rcases hfrac with rfl | ⟨frac, -, -, rfl⟩ <;> rfl
  refine spells_lexeme (clear_of_forall_ne fun c hc => ?_) ?_ (by rintro rfl; cases hhead) hread rfl
  · rcases hchars c hc with h | rfl
    · exact ne_of_isWordChar h (by decide)
    · decide
  · rw [hhead]
    simpa using not_isWhiteSpace_of_isDigit (hall c (by simp))

theorem spells_string {value : Text} (h : d.Absent value) :
    Spells d b false Anything (Quoted.write value) (One (.string value) (Quoted.write value)) := by
  have hq := Quoted.isQuote_quoteFor value
  have hbrace : Quoted.quoteFor value ≠ '}' := by rcases hq with hq | hq <;> rw [hq] <;> decide
  refine spells_lexeme ?_ ?_ (by simp [Quoted.write]) (fun _ _ => Lexeme.read_string value) rfl
  · refine ⟨Quoted.absent_write h, by simpa [Quoted.write] using hbrace, ?_⟩
    rw [Quoted.write, List.getLast?_concat]
    simpa using hbrace
  · rintro c ⟨⟩
    rcases hq with hq | hq <;> rw [hq] <;> decide

theorem spells_comparison (op : Comparison) :
    Spells d b false (fun rest => ∃ more, rest = ' ' :: more) op.spelling (One (.comparison op) op.spelling) := by
  refine spells_lexeme (clear_of_forall_ne ?_) ?_ ?_ ?_ rfl
  · cases op <;> simp [Comparison.spelling]
  · cases op <;> rintro c ⟨⟩ <;> rfl
  · cases op <;> simp [Comparison.spelling]
  · rintro _ ⟨more, rfl⟩; exact Lexeme.read_comparison op

/-! ## Spelled texts side by side -/

/-- A punctuation mark before a spelled text. -/
theorem Spells.punct_cons {c : Char} {p : Punct} (hc : c ∈ ['.', ':', '|', ',', '(', ')', '-'])
    (hp : Punct.ofChar? c = some p) (h : Spells d (p == .dot) b' F x P) :
    Spells d b b' F (c :: x) fun ts => ∃ t us, ts = t :: us ∧ t.kind = .punct p ∧ P us := by
  refine ((spells_punct hc hp).append h fun _ _ => trivial).imp ?_
  rintro _ ⟨_, us, rfl, ⟨o, rfl⟩, hus⟩
  exact ⟨_, us, rfl, rfl, hus⟩

/-- A closing parenthesis after a spelled text. -/
theorem Spells.closing (h : Spells d b false EndsLexeme x P) :
    Spells d b false Anything (x ++ [')']) fun ts => ∃ us t, ts = us ++ [t] ∧ P us ∧ t.kind = .punct .rparen := by
  refine (h.append (spells_punct (p := .rparen) (by simp) rfl) fun rest _ => .cons rest (by decide)).imp ?_
  rintro _ ⟨us, _, rfl, hus, o, rfl⟩
  exact ⟨us, _, rfl, hus, rfl⟩

/-- A word and a blank before a spelled text. -/
theorem Spells.word_cons {w : Text} (hw : w.isWord) (h : Spells d false b' F x P) :
    Spells d b b' F (w ++ ' ' :: x) fun ts => ∃ t us, ts = t :: us ∧ t.kind = Lexeme.wordKind w ∧ t.text = w ∧ P us := by
  have hblank := spells_blank.append h fun _ _ => trivial
  refine ((spells_word hw).append hblank ?_).imp ?_
  · rintro rest - c ⟨⟩; decide
  · rintro _ ⟨_, _, rfl, ⟨o, rfl⟩, _, us, rfl, rfl, hus⟩
    exact ⟨_, us, rfl, rfl, rfl, hus⟩

/-- Two spelled texts joined by an operator between blanks. -/
theorem Spells.join {w y : Text} {R : List Token → Prop} (hx : Spells d b false EndsLexeme x P)
    (hw : Spells d false false (fun rest => ∃ more, rest = ' ' :: more) w Q) (hy : Spells d false b' F y R) :
    Spells d b b' F (x ++ ' ' :: w ++ ' ' :: y) fun ts =>
      ∃ us vs zs, ts = us ++ (vs ++ zs) ∧ P us ∧ Q vs ∧ R zs := by
  have hright := hw.append (spells_blank.append hy fun _ _ => trivial) fun rest _ => ⟨_, rfl⟩
  have hall := hx.append (spells_blank.append hright fun _ _ => trivial) fun rest _ => .cons _ (by decide)
  have htext : x ++ ' ' :: w ++ ' ' :: y = x ++ ([' '] ++ (w ++ ([' '] ++ y))) := by simp
  rw [htext]
  refine hall.imp ?_
  rintro _ ⟨us, _, rfl, hus, _, _, rfl, rfl, vs, _, rfl, hvs, _, zs, rfl, rfl, hzs⟩
  exact ⟨us, vs, zs, rfl, hus, hvs, hzs⟩

/-- A spelled text between blanks. -/
theorem Spells.padded (h : Spells d b b' EndsLexeme x P) : Spells d b b' Anything (' ' :: x ++ [' ']) P := by
  refine ((spells_blank.append h fun _ _ => trivial).append spells_blank fun rest _ => .cons rest (by decide)).imp ?_
  rintro _ ⟨_, _, rfl, ⟨_, us, rfl, rfl, hus⟩, rfl⟩
  simpa using hus

end

/-! ## Operands -/

open Grammar

/-- Tokens of a directive `d`: their texts fit their kinds, and no string hides a closer of `d`. -/
def Good (d : Delim) (ts : List Token) : Prop := (∃ b, FitsAll b ts) ∧ Harmless d ts

section
variable {d : Delim} {b : Bool} {ts us : List Token}

theorem Good.append (h : Good d (ts ++ us)) : Good d ts ∧ Good d us := by
  obtain ⟨⟨b, hfits⟩, hharmless⟩ := h
  have hsplit := List.forall_mem_append.1 hharmless
  exact ⟨⟨⟨b, hfits.left⟩, hsplit.1⟩, hfits.right, hsplit.2⟩

theorem Good.tail {t : Token} (h : Good d ([t] ++ ts)) : Good d ts := h.append.2

theorem Good.fits {t : Token} (h : Good d (t :: ts)) : ∃ b, t.kind.Fits b t.text :=
  h.1.imp fun _ hfits => hfits.1

/-- A name is a word that is not reserved. -/
def IsName (w : Text) : Prop := w.isWord ∧ Keyword.ofWord? w = none

theorem Good.isName {t : Token} (h : Good d (t :: ts)) (ht : t.kind = .name) : IsName t.text := by
  obtain ⟨b, hfits⟩ := h.fits
  rwa [ht] at hfits

theorem IsName.wordKind {w : Text} (h : IsName w) : Lexeme.wordKind w = .name := by
  simp [Lexeme.wordKind, h.2]

theorem spells_literal {l : Literal} (h : IsLiteral ts l) (hts : Good d ts) :
    Spells d false false EndsLexeme l.print (IsLiteral · l) := by
  cases h with
  | @string value text o =>
    have habsent : d.Absent value := hts.2 _ (List.mem_singleton.2 rfl) value rfl
    refine ((spells_string habsent).before fun _ _ => trivial).imp ?_
    rintro _ ⟨o, rfl⟩
    exact .string
  | @number digits o =>
    obtain ⟨_, hnumber, -⟩ := hts.fits
    refine (spells_number hnumber).imp ?_
    rintro _ ⟨o, rfl⟩
    exact .number
  | @negative minus digits o p =>
    obtain ⟨_, hnumber, -⟩ := hts.tail.fits
    refine (Spells.punct_cons (p := .minus) (by simp) rfl (spells_number hnumber)).imp ?_
    rintro _ ⟨⟨_, text, o⟩, _, rfl, rfl, p, rfl⟩
    exact .negative
  | yes =>
    refine ((spells_word (by decide)).before fun _ => EndsLexeme.endsWord).imp ?_
    rintro _ ⟨o, rfl⟩
    exact .yes
  | no =>
    refine ((spells_word (by decide)).before fun _ => EndsLexeme.endsWord).imp ?_
    rintro _ ⟨o, rfl⟩
    exact .no

theorem spells_literals {sep : Text} (hsep : sep = [','] ∨ sep = [',', ' ']) {args : List Literal}
    (h : CommaList IsLiteral ts args) (hts : Good d ts) :
    Spells d false false EndsLexeme (List.intercalate sep (args.map Literal.print)) (CommaList IsLiteral · args) := by
  have hcomma : ∀ {x : Text} {P : List Token → Prop}, Spells d false false EndsLexeme x P →
      Spells d false false EndsLexeme (sep ++ x) fun ts => ∃ t us, ts = t :: us ∧ t.kind = .punct .comma ∧ P us := by
    intro x P hx
    rcases hsep with rfl | rfl
    · exact .punct_cons (by simp) rfl hx
    · refine .punct_cons (by simp) rfl ((spells_blank.append hx fun _ _ => trivial).imp ?_)
      rintro _ ⟨_, us, rfl, rfl, hus⟩
      exact hus
  have hmeet : ∀ rest, EndsLexeme (sep ++ rest) := by
    rcases hsep with rfl | rfl <;> exact fun rest => .cons _ (by decide)
  induction h with
  | @one ts a h =>
    rw [List.map_singleton, List.intercalate_singleton]
    exact (spells_literal h hts).imp fun _ => .one
  | @more ts us comma a as h hkind hmore ih =>
    obtain ⟨hhere, hrest⟩ := hts.append
    obtain ⟨a', as', rfl⟩ : ∃ a' as', as = a' :: as' := by cases hmore <;> exact ⟨_, _, rfl⟩
    rw [List.map_cons, List.map_cons, List.intercalate_cons_cons, ← List.map_cons, List.append_assoc]
    refine ((spells_literal h hhere).append (hcomma (ih hrest.tail)) fun rest _ => ?_).imp ?_
    · rw [List.append_assoc]; exact hmeet _
    · rintro _ ⟨us, _, rfl, hus, t, vs, rfl, ht, hvs⟩
      exact .more hus ht hvs

theorem spells_filter {f : Filter} (h : IsFilter ts f) (hts : Good d ts) :
    Spells d false false EndsLexeme f.print (IsFilter · f) := by
  cases h with
  | @bare name hname =>
    have hword := hts.isName hname
    refine ((spells_word hword.1).before fun _ => EndsLexeme.endsWord).imp ?_
    rintro _ ⟨o, rfl⟩
    exact @IsFilter.bare ⟨_, name.text, o⟩ hword.wordKind
  | @colon name colon ts args hname hcolon hargs =>
    have hword := hts.isName hname
    have hlist := spells_literals (.inl rfl) hargs hts.tail.tail
    refine ((spells_word hword.1).append (.punct_cons (by simp) rfl hlist) fun rest _ c hc => ?_).imp ?_
    · cases hc; decide
    · rintro _ ⟨_, _, rfl, ⟨o, rfl⟩, t, us, rfl, ht, hus⟩
      exact @IsFilter.colon ⟨_, name.text, o⟩ t us args hword.wordKind ht hus
  | @emptyCall name opening closing hname hopening hclosing =>
    have hword := hts.isName hname
    have htext : Filter.print ⟨name.text, .call, []⟩ = name.text ++ ['(', ')'] := by simp [Filter.print]
    rw [htext]
    have hclose : Spells d false false EndsLexeme [')'] (One (.punct .rparen) [')']) :=
      (spells_punct (c := ')') (by simp) rfl).before fun _ _ => trivial
    refine ((spells_word hword.1).append (.punct_cons (c := '(') (by simp) rfl hclose) fun rest _ c hc => ?_).imp ?_
    · cases hc; decide
    · rintro _ ⟨_, _, rfl, ⟨o, rfl⟩, t, _, rfl, ht, p, rfl⟩
      exact @IsFilter.emptyCall ⟨_, name.text, o⟩ t _ hword.wordKind ht rfl
  | @call name opening closing ts args hname hopening hargs hclosing =>
    have hword := hts.isName hname
    have hlist := (spells_literals (.inr rfl) hargs hts.tail.tail.append.1).closing
    have htext : Filter.print ⟨name.text, .call, args⟩ =
        name.text ++ '(' :: (List.intercalate [',', ' '] (args.map Literal.print) ++ [')']) := by
      simp [Filter.print]
    rw [htext]
    refine (((spells_word hword.1).append (.punct_cons (c := '(') (by simp) rfl hlist) fun rest _ c hc => ?_).before
      fun _ _ => trivial).imp ?_
    · cases hc; decide
    · rintro _ ⟨_, _, rfl, ⟨o, rfl⟩, t, _, rfl, ht, us, t', rfl, hus, ht'⟩
      exact @IsFilter.call ⟨_, name.text, o⟩ t t' us args hword.wordKind ht hus ht'

theorem endsLexeme_printAll {fs : List Filter} {rest : Text} (h : EndsLexeme rest) :
    EndsLexeme (Filter.printAll fs ++ rest) := by
  cases fs with
  | nil => exact h
  | cons f fs => exact .cons _ (by decide)

theorem spells_filters {fs : List Filter} (h : IsFilters ts fs) (hts : Good d ts) :
    Spells d false false EndsLexeme (Filter.printAll fs) (IsFilters · fs) := by
  induction h with
  | nil => exact (spells_nil.before fun _ _ => trivial).imp fun _ h => h ▸ .nil
  | @cons bar ts us f fs hbar hf _ ih =>
    obtain ⟨hhere, hrest⟩ := hts.tail.append
    have hmore := (spells_filter hf hhere).append (ih hrest) fun rest => endsLexeme_printAll
    refine (Spells.punct_cons (c := '|') (by simp) rfl hmore).imp ?_
    rintro _ ⟨t, _, rfl, ht, us, vs, rfl, hus, hvs⟩
    exact .cons ht hus hvs

/-! ## Paths -/

/-- The names of a path can be written one after the other. -/
def Path.Fits (p : Path) : Prop := IsName p.base ∧ ∀ f ∈ p.fields, f.isWord ∨ IsSegment f

theorem fits_of_isFields {fs : List Text} (h : IsFields ts fs) (hts : Good d ts) :
    ∀ f ∈ fs, f.isWord ∨ IsSegment f := by
  induction h with
  | nil => simp
  | @cons point field ts fs hpoint hfield _ ih =>
    refine List.forall_mem_cons.2 ⟨?_, ih hts.tail.tail⟩
    obtain ⟨⟨b, -, hfits, -⟩, -⟩ := hts
    have hdot : (point.kind == .punct .dot) = true := by simp [hpoint]
    rw [hdot] at hfits
    cases hkind : field.kind with
    | name => rw [hkind] at hfits; exact .inl hfits.1
    | keyword k => rw [hkind] at hfits; exact .inl hfits.1
    | number => rw [hkind] at hfits; exact .inr (hfits.2 rfl)
    | _ => simp [hkind, Token.Kind.isWord] at hfield

theorem fits_of_isPath {p : Path} {marked : Bool} (h : IsPath ts p marked) (hts : Good d ts) : p.Fits := by
  cases h with
  | plain hbase hfields => exact ⟨hts.isName hbase, fits_of_isFields hfields hts.tail⟩
  | marked _ _ _ hbase hfields =>
    exact ⟨hts.tail.tail.isName hbase, fits_of_isFields hfields hts.tail.tail.tail⟩

theorem spells_field {f : Text} (h : f.isWord ∨ IsSegment f) : Spells d true false EndsWord f fun ts =>
    ∃ t, ts = [t] ∧ (t.kind.isWord ∨ t.kind = .number) ∧ t.text = f := by
  rcases h with h | h
  · refine (spells_word h).imp ?_
    rintro _ ⟨o, rfl⟩
    refine ⟨_, rfl, .inl ?_, rfl⟩
    simp only [Lexeme.wordKind]
    split <;> rfl
  · refine (spells_segment h).imp ?_
    rintro _ ⟨o, rfl⟩
    exact ⟨_, rfl, .inr rfl, rfl⟩

theorem endsWord_fields {fs : List Text} {rest : Text} (h : EndsWord rest) :
    EndsWord (fs.flatMap ('.' :: ·) ++ rest) := by
  cases fs with
  | nil => exact h
  | cons f fs => rintro c ⟨⟩; decide

theorem spells_fields {fs : List Text} (h : ∀ f ∈ fs, f.isWord ∨ IsSegment f) :
    Spells d false false EndsWord (fs.flatMap ('.' :: ·)) (IsFields · fs) := by
  induction fs with
  | nil => exact (spells_nil.before fun _ _ => trivial).imp fun _ h => h ▸ .nil
  | cons f fs ih =>
    obtain ⟨hf, hfs⟩ := List.forall_mem_cons.1 h
    have hmore := (spells_field hf).append (ih hfs) fun _ => endsWord_fields
    refine (Spells.punct_cons (c := '.') (p := .dot) (by simp) rfl hmore).imp ?_
    rintro _ ⟨point, _, rfl, hpoint, _, us, rfl, ⟨field, rfl, hfield, rfl⟩, hus⟩
    exact .cons hpoint hfield hus

theorem dotted_eq (p : Path) : p.dotted = p.base ++ p.fields.flatMap ('.' :: ·) := by
  obtain ⟨base, fields, scope⟩ := p
  simp only [Path.dotted, Path.segments]
  induction fields generalizing base with
  | nil => simp
  | cons f fs ih => rw [List.intercalate_cons_cons, ih]; simp

/-- Words and numbers with points between them are read as a word with properties. -/
theorem spells_segments {p : Path} (hbase : p.base.isWord) (hfields : ∀ f ∈ p.fields, f.isWord ∨ IsSegment f) :
    Spells d false false EndsWord p.dotted fun ts =>
      ∃ t us, ts = t :: us ∧ t.kind = Lexeme.wordKind p.base ∧ t.text = p.base ∧ IsFields us p.fields := by
  rw [dotted_eq]
  refine ((spells_word hbase).append (spells_fields hfields) fun _ => endsWord_fields).imp ?_
  rintro _ ⟨_, us, rfl, ⟨o, rfl⟩, hus⟩
  exact ⟨_, us, rfl, rfl, rfl, hus⟩

/-- Words and numbers with points between them are read as a path, unless the first is reserved. -/
theorem spells_dotted {p : Path} (hbase : p.base.isWord) (hfields : ∀ f ∈ p.fields, f.isWord ∨ IsSegment f) :
    Spells d false false EndsWord p.dotted fun ts => IsName p.base → IsPath ts p false := by
  refine (spells_segments hbase hfields).imp ?_
  rintro _ ⟨t, us, rfl, ht, htext, hus⟩ hname
  have hpath := @IsPath.plain t us p.fields p.scope (ht.trans hname.wordKind) hus
  rwa [htext] at hpath

end

end MailDialect
