import MailDialect.Preview
import MailDialect.Proofs.Bracketing
import MailDialect.Proofs.Writing

/-!
# Plainly written directives

A directive is plainly written if its characters show its names at first sight: braces stand in its
delimiters only, names are in ASCII and hold no blanks, and a default stands in double quotes and
escapes nothing (`PlainlyWritten`). Main statements: the characters of such a variable
(`PlainlyWritten.variable`) and of such a loop over a plain name (`PlainlyWritten.loop`).
-/

namespace MailDialect

open Unicode Grammar

/-! ## Plain writing -/

def Text.Braceless (text : Text) : Prop := ∀ c ∈ text, c ≠ '{' ∧ c ≠ '}'

def Text.Ascii (text : Text) : Prop := ∀ c ∈ text, c.toNat < 0x80

def Token.Kind.isString : Token.Kind → Bool
  | .string _ => true
  | _ => false

/-- Two tokens touch if one of them is a point. -/
def Token.Tight (t u : Token) : Prop := t.kind = .punct .dot ∨ u.kind = .punct .dot → t.Touches u

/-- A marker, its colon and the name behind it touch. -/
def Token.MarkersTight : List Token → Prop
  | marker :: colon :: base :: ts =>
    (marker.kind = .name ∧ marker.text = Dialect.marker ∧ colon.kind = .punct .colon ∧ base.kind = .name →
      marker.Touches colon ∧ colon.Touches base) ∧ MarkersTight (colon :: base :: ts)
  | _ => True

/-- Words are in ASCII, and no blanks stand around a point or around the colon of a marker. -/
structure Neat (ts : List Token) : Prop where
  words : ∀ t ∈ ts, t.kind.isWord → t.text.Ascii
  points : ts.IsChain Token.Tight
  markers : Token.MarkersTight ts

/-- The tokens `inner` of a directive `d` are plainly written. -/
structure PlainlyWritten (d : Delim) (inner : List Token) : Prop where
  /-- Neither a comment nor a string holds a brace. -/
  braceless : ∀ t ∈ inner, d = .comment ∨ t.kind.isString → t.text.Braceless
  /-- The names of a variable and of the tag of a loop are neat. -/
  neat : (d = .var ∨ ∃ t ∈ inner.head?, t.kind = .keyword .kwFor) → Neat (beforeFilters inner)
  /-- The default of a variable stands in double quotes and escapes nothing. -/
  default : d = .var → ∀ t ∈ beforeFilters inner, t.kind.isString → t.text.head? = some '"' ∧ '\\' ∉ t.text

def Block.PlainlyWritten : Block → Prop
  | .text _ => True
  | .directive dir => MailDialect.PlainlyWritten dir.delim dir.inner

/-- A source divides into tokens, and all its directives are plainly written. -/
def Text.PlainlyWritten (source : Text) : Prop :=
  ∃ ts ∈ (Token.scan source).toOption, ∀ b ∈ Token.blocks ts, b.PlainlyWritten

instance (text : Text) : Decidable text.Braceless := List.decidableBAll (fun c => c ≠ '{' ∧ c ≠ '}') text

instance (text : Text) : Decidable text.Ascii := List.decidableBAll (fun c : Char => c.toNat < 0x80) text

instance (t u : Token) : Decidable (t.Touches u) := inferInstanceAs (Decidable (t.stop = u.offset))

instance (t u : Token) : Decidable (t.Tight u) :=
  inferInstanceAs (Decidable (t.kind = .punct .dot ∨ u.kind = .punct .dot → t.Touches u))

instance Token.decidableMarkersTight : DecidablePred Token.MarkersTight
  | [] | [_] | [_, _] => isTrue trivial
  | _ :: colon :: base :: ts =>
    have := decidableMarkersTight (colon :: base :: ts)
    inferInstanceAs (Decidable (_ ∧ Token.MarkersTight (colon :: base :: ts)))

instance (ts : List Token) : Decidable (Neat ts) :=
  decidable_of_iff ((∀ t ∈ ts, t.kind.isWord → t.text.Ascii) ∧ ts.IsChain Token.Tight ∧ Token.MarkersTight ts)
    ⟨fun h => ⟨h.1, h.2.1, h.2.2⟩, fun h => ⟨h.words, h.points, h.markers⟩⟩

instance (d : Delim) (inner : List Token) : Decidable (PlainlyWritten d inner) :=
  decidable_of_iff ((∀ t ∈ inner, d = .comment ∨ t.kind.isString → t.text.Braceless) ∧
      ((d = .var ∨ ∃ t ∈ inner.head?, t.kind = .keyword .kwFor) → Neat (beforeFilters inner)) ∧
      (d = .var → ∀ t ∈ beforeFilters inner, t.kind.isString → t.text.head? = some '"' ∧ '\\' ∉ t.text))
    ⟨fun h => ⟨h.1, h.2.1, h.2.2⟩, fun h => ⟨h.braceless, h.neat, h.default⟩⟩

instance : DecidablePred Block.PlainlyWritten
  | .text _ => isTrue trivial
  | .directive dir => inferInstanceAs (Decidable (PlainlyWritten dir.delim dir.inner))

instance (source : Text) : Decidable source.PlainlyWritten :=
  inferInstanceAs (Decidable (∃ ts ∈ (Token.scan source).toOption, ∀ b ∈ Token.blocks ts, b.PlainlyWritten))

section
variable {d : Delim} {ts us inner : List Token}

theorem Token.MarkersTight.left : ∀ {ts : List Token}, Token.MarkersTight (ts ++ us) → Token.MarkersTight ts
  | [], _ | [_], _ | [_, _], _ => trivial
  | _ :: _ :: _ :: _, h => ⟨h.1, Token.MarkersTight.left h.2⟩

theorem Token.MarkersTight.tail {t : Token} (h : Token.MarkersTight (t :: ts)) : Token.MarkersTight ts := by
  match ts, h with
  | [], _ | [_], _ => trivial
  | _ :: _ :: _, h => exact h.2

theorem Neat.left (h : Neat (ts ++ us)) : Neat ts :=
  ⟨(List.forall_mem_append.1 h.words).1, h.points.left_of_append, h.markers.left⟩

theorem Neat.tail {t : Token} (h : Neat (t :: ts)) : Neat ts :=
  ⟨(List.forall_mem_cons.1 h.words).2, h.points.tail, h.markers.tail⟩

end

/-! ## Characters -/

/-- A text is a name in ASCII, of letters, digits and underscores. -/
def Text.IsPlainName (text : Text) : Prop := text ≠ [] ∧ ∀ c ∈ text, Preview.isNameChar c

def Text.Blank (text : Text) : Prop := ∀ c ∈ text, isWhiteSpace c

section
variable {c : Char}

theorem isNameChar_of_isDigit (h : c.isDigit) : Preview.isNameChar c := by
  simp [Preview.isNameChar, Char.isAlphanum, h]

theorem isNameChar_of_isWordChar (h : isWordChar c) (hc : c.toNat < 0x80) : Preview.isNameChar c := by
  simp only [isWordChar, isAlphabetic, isNumeric, Ranges.has_of_ascii _ hc, Bool.or_false] at h
  simpa [Preview.isNameChar, Char.isAlphanum] using h

theorem isWordChar_of_isNameChar (h : Preview.isNameChar c) : isWordChar c := by
  simp only [Preview.isNameChar, Char.isAlphanum, Bool.or_eq_true] at h
  simp only [isWordChar, isAlphabetic, isNumeric, Bool.or_eq_true]
  tauto

theorem not_isDottedChar_of_isWhiteSpace (h : isWhiteSpace c) : Preview.isDottedChar c = false := by
  have hcodes : ∀ n ∈ blankCodes, Preview.isDottedChar (Char.ofNat n) = false := by decide
  simpa using hcodes _ (mem_blankCodes h)

theorem isDottedChar_of_isNameChar (h : Preview.isNameChar c) : Preview.isDottedChar c := by
  simp [Preview.isDottedChar, h]

theorem not_isNameChar_of_isWhiteSpace (h : isWhiteSpace c) : Preview.isNameChar c = false := by
  by_contra hname
  have hdotted := not_isDottedChar_of_isWhiteSpace h
  rw [isDottedChar_of_isNameChar (by simpa using hname)] at hdotted
  cases hdotted

end

/-! ## Tokens and their characters -/

theorem Lexeme.endsWord {b : Bool} {text : Text} {l : Lexeme} (h : Lexeme.read b text = .ok l)
    (hword : l.kind.isWord) : EndsWord l.rest := by
  have hnumber : ∀ {segment text}, Lexeme.number segment text = .ok l → l.kind = .number := by
    intro segment text h
    unfold Lexeme.number at h
    simp only at h
    split at h
    · split at h
      · cases h
      · rw [Lexeme.endNumber_eq_ok h]
    · rw [Lexeme.endNumber_eq_ok h]
  have hends : ∀ text : Text, EndsWord (text.dropWhile isWordChar) := by
    intro text c hc
    have hdrop := List.head?_dropWhile_not isWordChar text
    rwa [hc] at hdrop
  unfold Lexeme.read at h
  split at h
  · cases h
  · split at h
    · cases h; cases hword
    · split at h
      · cases h; cases hword
      · split at h
        · split at h <;> cases h
          cases hword
        · split at h
          · rw [hnumber h] at hword; cases hword
          · split at h
            · cases h; exact hends _
            · cases h

theorem Text.eq_nil_of_byteSize {text : Text} (h : Text.byteSize text = 0) : text = [] := by
  cases text with
  | nil => rfl
  | cons c rest => exact absurd h (Nat.ne_of_gt Text.byteSize_pos)

theorem Token.Kind.Fits.isWord {kind : Token.Kind} {b : Bool} {text : Text} (h : kind.Fits b text) (hword : kind.isWord) : text.isWord := by
  cases kind <;> first | exact h.1 | cases hword

theorem Token.Kind.Fits.punct {q : Punct} {c : Char} {b : Bool} {text : Text} (h : (Token.Kind.punct q).Fits b text)
    (hc : Punct.ofChar? c = some q) : text = [c] := by
  obtain ⟨x, rfl, hx⟩ := h
  unfold Punct.ofChar? at hx
  split at hx <;> cases hx <;>
  · unfold Punct.ofChar? at hc
    split at hc <;> first | rfl | cases hc

/-- A text without braces, as far as its kind goes. -/
theorem Token.Kind.Fits.braceless {kind : Token.Kind} {b : Bool} {text : Text} (h : kind.Fits b text)
    (hkind : kind.isString = false) : text.Braceless := by
  have hword : ∀ {text : Text}, (∀ c ∈ text, isWordChar c) → text.Braceless := fun h c hc =>
    ⟨ne_of_isWordChar (h c hc) (by decide), ne_of_isWordChar (h c hc) (by decide)⟩
  have hdigits : ∀ {text : Text}, (∀ c ∈ text, c.isDigit) → text.Braceless := fun h =>
    hword fun c hc => isWordChar_of_isDigit (h c hc)
  cases kind with
  | text | opener | closer => exact h.elim
  | string => cases hkind
  | name | keyword => exact hword (chars_of_isWord h.1).2
  | comparison op => subst h; cases op <;> simp [Text.Braceless, Comparison.spelling]
  | punct p =>
    obtain ⟨c, rfl, hc⟩ := h
    refine List.forall_mem_singleton.2 ⟨?_, ?_⟩ <;> rintro rfl <;> cases hc
  | number =>
    obtain ⟨⟨whole, -, hwhole, rfl | ⟨frac, -, hfrac, rfl⟩⟩, -⟩ := h
    · exact hdigits hwhole
    · exact List.forall_mem_append.2 ⟨hdigits hwhole, List.forall_mem_cons.2 ⟨by decide, hdigits hfrac⟩⟩

section
variable {b : Bool} {offset : Nat} {body : Text} {t : Token} {ts : List Token}

/-- The first token stands at the front of a body, behind blanks. -/
theorem Lexes.cons_inv (h : Lexes b offset body (t :: ts)) : ∃ gap rest, body = gap ++ (t.text ++ rest) ∧
    gap.Blank ∧ t.offset = offset + Text.byteSize gap ∧ t.kind.Fits b t.text ∧ (t.kind.isWord → EndsWord rest) ∧
    Lexes (t.kind == .punct .dot) t.stop rest ts := by
  cases h with
  | @lexeme _ _ gap text l ts hgap hhead hread hmore =>
    exact ⟨gap, l.rest, by rw [Lexeme.text_append_rest hread], hgap, rfl, Lexeme.fits hread,
      Lexeme.endsWord hread, hmore⟩

theorem Lexes.nil_inv (h : Lexes b offset body []) : body.Blank := by
  cases h with
  | blank hgap => exact hgap

/-- A token that touches the one before it stands right at the front. -/
theorem Lexes.touching {prev : Token} (h : Lexes b prev.stop body (t :: ts)) (htouches : prev.Touches t) :
    ∃ rest, body = t.text ++ rest ∧ t.kind.Fits b t.text ∧ Lexes (t.kind == .punct .dot) t.stop rest ts := by
  obtain ⟨gap, rest, rfl, -, hoffset, hfits, -, hmore⟩ := h.cons_inv
  have hgap : Text.byteSize gap = 0 := by rw [Token.Touches, hoffset] at htouches; omega
  exact ⟨rest, by rw [Text.eq_nil_of_byteSize hgap, List.nil_append], hfits, hmore⟩

/-- A punctuation mark among the tokens is a character of the body. -/
theorem Lexes.mem_punct (h : Lexes b offset body ts) (ht : t ∈ ts) {q : Punct} {c : Char} (hkind : t.kind = .punct q)
    (hc : Punct.ofChar? c = some q) : c ∈ body := by
  induction ts generalizing b offset body with
  | nil => cases ht
  | cons u ts ih =>
    obtain ⟨gap, rest, rfl, -, -, hfits, -, hmore⟩ := h.cons_inv
    rcases List.mem_cons.1 ht with rfl | ht
    · rw [hkind] at hfits
      simp [hfits.punct hc]
    · simp [ih hmore ht]

/-- A body without braces in its strings is without braces. -/
theorem Lexes.braceless (h : Lexes b offset body ts) (hstrings : ∀ t ∈ ts, t.kind.isString → t.text.Braceless) :
    body.Braceless := by
  have hblank : ∀ {gap : Text}, gap.Blank → gap.Braceless := by
    intro gap hgap c hc
    constructor <;> rintro rfl <;> exact absurd (hgap _ hc) (by decide)
  induction ts generalizing b offset body with
  | nil => exact hblank h.nil_inv
  | cons t ts ih =>
    obtain ⟨gap, rest, rfl, hgap, -, hfits, -, hmore⟩ := h.cons_inv
    obtain ⟨ht, hts⟩ := List.forall_mem_cons.1 hstrings
    refine List.forall_mem_append.2 ⟨hblank hgap, List.forall_mem_append.2 ⟨?_, ih hmore hts⟩⟩
    cases hkind : t.kind.isString with
    | true => exact ht hkind
    | false => exact hfits.braceless hkind

end

theorem PlainlyWritten.braceless_body {d : Delim} {start : Nat} {body : Text} {inner : List Token}
    (h : PlainlyWritten d inner) (hinside : Inside d false start body inner) : body.Braceless := by
  cases d with
  | comment =>
    simp only [Inside] at hinside
    subst hinside
    split at h
    · rename_i hempty; simp [hempty, Text.Braceless]
    · exact h.braceless _ (List.mem_singleton.2 rfl) (.inl rfl)
  | var | tag => exact Lexes.braceless hinside fun t ht hstring => h.braceless t ht (.inr hstring)

/-! ## Names -/

theorem isPlainName_of_isWord {text : Text} (h : text.isWord) (hascii : text.Ascii) : text.IsPlainName := by
  obtain ⟨hne, hchars⟩ := chars_of_isWord h
  exact ⟨hne, fun c hc => isNameChar_of_isWordChar (hchars c hc) (hascii c hc)⟩

theorem isPlainName_of_isSegment {text : Text} (h : IsSegment text) : text.IsPlainName :=
  ⟨h.1, fun c hc => isNameChar_of_isDigit (h.2 c hc)⟩

/-- All names of a path are plain names. -/
def Path.IsPlain (p : Path) : Prop := ∀ name ∈ p.segments, name.IsPlainName

theorem Path.IsPlain.dotted {p : Path} (h : p.IsPlain) : p.dotted ≠ [] ∧ ∀ c ∈ p.dotted, Preview.isDottedChar c := by
  obtain ⟨⟨hne, hbase⟩, hfields⟩ := List.forall_mem_cons.1 h
  rw [dotted_eq]
  refine ⟨by simp [hne], List.forall_mem_append.2 ⟨fun c hc => isDottedChar_of_isNameChar (hbase c hc), ?_⟩⟩
  intro c hc
  obtain ⟨field, hfield, hc⟩ := List.mem_flatMap.1 hc
  rcases List.mem_cons.1 hc with rfl | hc
  · rfl
  · exact isDottedChar_of_isNameChar ((hfields field hfield).2 c hc)

/-- A marker with its colon, or nothing. -/
def marking (marked : Bool) : Text := if marked then Dialect.marker ++ [':'] else []

section
variable {b : Bool} {offset : Nat} {body : Text} {prev : Token} {ts more : List Token} {p : Path} {marked : Bool}

/-- The properties of a path stand right behind its name, in one piece. -/
theorem Lexes.fields {fs : List Text} (h : Lexes b prev.stop body (ts ++ more)) (hfields : IsFields ts fs)
    (hneat : Neat (prev :: ts)) : ∃ b' o rest, body = fs.flatMap ('.' :: ·) ++ rest ∧
      (∀ f ∈ fs, f.IsPlainName) ∧ Lexes b' o rest more := by
  induction hfields generalizing b prev body with
  | nil => exact ⟨b, _, body, rfl, by simp, h⟩
  | @cons point field ts fs hpoint hfield _ ih =>
    obtain ⟨hbefore, hchain⟩ := List.isChain_cons_cons.1 hneat.points
    have hbehind := (List.isChain_cons_cons.1 hchain).1
    obtain ⟨_, rfl, hdot, h⟩ := Lexes.touching h (hbefore (.inr hpoint))
    obtain ⟨_, rfl, hfits, h⟩ := Lexes.touching h (hbehind (.inl hpoint))
    obtain ⟨b', o, rest, rfl, hplain, h⟩ := ih h hneat.tail.tail
    rw [hpoint] at hdot
    have hname : field.text.IsPlainName := by
      rcases hfield with hword | hnumber
      · exact isPlainName_of_isWord (hfits.isWord hword) (hneat.words field (by simp) hword)
      · rw [hnumber, hpoint] at hfits
        exact isPlainName_of_isSegment (hfits.2 rfl)
    refine ⟨b', o, rest, ?_, List.forall_mem_cons.2 ⟨hname, hplain⟩, h⟩
    simp [hdot.punct (c := '.') rfl]

/-- The names of a path stand in one piece, the marker right before them. -/
theorem Lexes.path (h : Lexes b offset body (ts ++ more)) (hpath : IsPath ts p marked) (hneat : Neat ts) :
    ∃ gap b' o rest, body = gap ++ (marking marked ++ (p.dotted ++ rest)) ∧ gap.Blank ∧ p.IsPlain ∧
      Lexes b' o rest more := by
  have hword : ∀ {b : Bool} {base : Token}, base ∈ ts → base.kind = .name → base.kind.Fits b base.text →
      base.text.IsPlainName := by
    intro b base hmem hbase hfits
    have hisWord : base.kind.isWord := by rw [hbase]; rfl
    exact isPlainName_of_isWord (hfits.isWord hisWord) (hneat.words base hmem hisWord)
  cases hpath with
  | @plain base ts fs scope hbase hfields =>
    obtain ⟨gap, _, rfl, hgap, -, hfits, -, h⟩ := h.cons_inv
    obtain ⟨b', o, rest, rfl, hplain, h⟩ := h.fields hfields hneat
    refine ⟨gap, b', o, rest, by simp [dotted_eq, marking], hgap, ?_, h⟩
    exact List.forall_mem_cons.2 ⟨hword (by simp) hbase hfits, hplain⟩
  | @marked marker colon base ts fs scope hmarker htext hcolon hbase hfields =>
    obtain ⟨hcolonTouches, hbaseTouches⟩ := hneat.markers.1 ⟨hmarker, htext, hcolon, hbase⟩
    obtain ⟨gap, _, rfl, hgap, -, -, -, h⟩ := h.cons_inv
    obtain ⟨_, rfl, hpunct, h⟩ := Lexes.touching h hcolonTouches
    obtain ⟨_, rfl, hfits, h⟩ := Lexes.touching h hbaseTouches
    obtain ⟨b', o, rest, rfl, hplain, h⟩ := h.fields hfields hneat.tail.tail
    rw [hcolon] at hpunct
    refine ⟨gap, b', o, rest, ?_, hgap, List.forall_mem_cons.2 ⟨hword (by simp) hbase hfits, hplain⟩, h⟩
    simp [dotted_eq, marking, htext, hpunct.punct (c := ':') rfl]

end

/-! ## Variables -/

/-- What may stand behind the name of a variable: filters alone, or a default before them. -/
inductive Ending : Option Literal → Text → Prop
  | bare {gap filters : Text} (hgap : gap.Blank) (hfilters : ∀ c ∈ filters.head?, c = '|') :
    Ending none (gap ++ filters)
  | default {gap inside value filters : Text} (hgap : gap.Blank) (hinside : inside.Blank) (hvalue : '"' ∉ value) :
    Ending (some (.string value)) (gap ++ ':' :: (inside ++ '"' :: (value ++ '"' :: filters)))

section
variable {b : Bool} {offset : Nat} {body : Text} {ts us vs inner : List Token} {p : Path} {marked : Bool}
  {default : Option Literal} {fs : List Filter}

theorem Lexes.ending (h : Lexes b offset body (us ++ vs)) (hdefault : IsDefault us default)
    (hfilters : IsFilters vs fs)
    (hplain : ∀ t ∈ us, t.kind.isString → t.text.head? = some '"' ∧ '\\' ∉ t.text) : Ending default body := by
  cases hdefault with
  | none =>
    rw [List.nil_append] at h
    cases hfilters with
    | nil =>
      have hnone : ∀ c ∈ ([] : Text).head?, c = '|' := by simp
      simpa using Ending.bare h.nil_inv hnone
    | cons hbar =>
      obtain ⟨gap, rest, rfl, hgap, -, hfits, -, -⟩ := h.cons_inv
      rw [hbar] at hfits
      refine .bare hgap ?_
      simp [hfits.punct (c := '|') rfl]
  | @some colon value text o hcolon =>
    obtain ⟨gap, _, rfl, hgap, -, hpunct, -, h⟩ := h.cons_inv
    obtain ⟨inside, rest, rfl, hinside, -, hfits, -, -⟩ := h.cons_inv
    obtain ⟨hquote, hescape⟩ := hplain ⟨.string value, text, o⟩ (by simp) rfl
    obtain ⟨quote, _, found, -, hfound, htext, rfl⟩ := hfits
    simp only at htext hquote hescape
    subst htext
    obtain rfl : quote = '"' := by simpa using hquote
    obtain ⟨hwritten, hvalue⟩ := Quoted.written_of_plain hfound (fun hmem => hescape (List.mem_cons_of_mem _ hmem))
    rw [hcolon] at hpunct
    rw [hpunct.punct (c := ':') rfl, hwritten, List.singleton_append, List.cons_append, List.append_assoc]
    exact .default hgap hinside hvalue

/-- **A plainly written variable**: its name in one piece, then its default and its filters. -/
theorem PlainlyWritten.variable (h : PlainlyWritten .var inner) (hlexes : Lexes b offset body inner)
    (hhead : IsHead .var inner (.var p default fs marked)) : ∃ gap ending,
      body = gap ++ (marking marked ++ (p.dotted ++ ending)) ∧ gap.Blank ∧ p.IsPlain ∧ Ending default ending := by
  cases hhead with
  | @var ts us vs _ _ _ _ hpath hdefault hfilters =>
    have hneat := h.neat (.inl rfl)
    have hquoted := h.default rfl
    rw [beforeFilters_var hpath hdefault hfilters] at hneat hquoted
    rw [List.append_assoc] at hlexes
    obtain ⟨gap, _, _, ending, rfl, hgap, hplain, hlexes⟩ := hlexes.path hpath hneat.left
    exact ⟨gap, ending, rfl, hgap, hplain,
      hlexes.ending hdefault hfilters (List.forall_mem_append.1 hquoted).2⟩

end

/-! ## Loops -/

theorem Keyword.spelling_mem {w : Text} {k : Keyword} (h : Keyword.ofWord? w = some k) : (w, k) ∈ Keyword.spellings := by
  obtain ⟨before, after, hspellings, -⟩ := List.lookup_eq_some_iff.1 h
  simp [hspellings]

section
variable {b : Bool} {offset : Nat} {body gap text x : Text} {ts inner : List Token} {p : Path} {marked : Bool}

theorem Text.IsPlainName.head? (h : x.IsPlainName) (text : Text) : (x ++ text).head?.any isWordChar := by
  obtain ⟨c, tail, rfl⟩ := List.exists_cons_of_ne_nil h.1
  simpa using isWordChar_of_isNameChar (h.2 c (by simp))

theorem Path.IsPlain.head? (h : p.IsPlain) (marked : Bool) (text : Text) :
    (marking marked ++ (p.dotted ++ text)).head?.any isWordChar := by
  cases marked with
  | true => rfl
  | false =>
    rw [dotted_eq, List.append_assoc]
    exact (h p.base (by simp [Path.segments])).head? _

/-- Between a word and a name there are blanks. -/
theorem EndsWord.gap_ne_nil (h : EndsWord (gap ++ text)) (htext : text.head?.any isWordChar) : gap ≠ [] := by
  rintro rfl
  rw [List.nil_append] at h
  cases hhead : text.head? with
  | none => simp [hhead] at htext
  | some c => simp [hhead, h c hhead] at htext

/-- **A plainly written loop over a plain name**, word by word. -/
theorem PlainlyWritten.loop (h : PlainlyWritten .tag inner) (hlexes : Lexes b offset body inner)
    (hhead : IsHead .tag inner (.forTag x (.collection p []))) : ∃ g g₁ g₂ g₃ g₄ marked,
      body = g ++ (['f', 'o', 'r'] ++ (g₁ ++ (x ++ (g₂ ++ (['i', 'n'] ++ (g₃ ++ (marking marked ++
        (p.dotted ++ g₄)))))))) ∧
      (∀ gap ∈ [g, g₁, g₂, g₃, g₄], gap.Blank) ∧ (∀ gap ∈ [g₁, g₂, g₃], gap ≠ []) ∧
      x.IsPlainName ∧ p.IsPlain := by
  have hspelled : ∀ {b : Bool} {t : Token} {k : Keyword}, t.kind = .keyword k → t.kind.Fits b t.text →
      t.kind.isWord ∧ (t.text, k) ∈ Keyword.spellings := by
    intro b t k hkind hfits
    rw [hkind] at hfits ⊢
    exact ⟨rfl, Keyword.spelling_mem hfits.2⟩
  cases hhead with
  | @forTag word name second ts _ hword hname hsecond hsource =>
    cases hsource with
    | @collection ts us _ marked _ hpath hfilters =>
      cases hfilters
      have hpipe : ∀ t ∈ word :: name :: second :: ts, t.kind ≠ .punct .pipe := by
        simpa [hword, hname, hsecond] using kind_ne_pipe_of_isPath hpath
      have hneat := h.neat (.inr ⟨word, rfl, hword⟩)
      rw [List.append_nil] at hlexes hneat
      rw [← List.append_nil (word :: name :: second :: ts), beforeFilters_append hpipe .nil] at hneat
      obtain ⟨g, _, rfl, hg, -, hfits, hends, hlexes⟩ := hlexes.cons_inv
      obtain ⟨g₁, _, rfl, hg₁, -, hfits₁, hends₁, hlexes⟩ := hlexes.cons_inv
      obtain ⟨g₂, _, rfl, hg₂, -, hfits₂, hends₂, hlexes⟩ := hlexes.cons_inv
      rw [← List.append_nil ts] at hlexes
      obtain ⟨g₃, _, _, g₄, rfl, hg₃, hplain, hlexes⟩ := hlexes.path hpath hneat.tail.tail.tail
      obtain ⟨hisWord, hfor⟩ := hspelled hword hfits
      obtain ⟨hisWord₂, hin⟩ := hspelled hsecond hfits₂
      have hisWord₁ : name.kind.isWord := by rw [hname]; rfl
      have hx := isPlainName_of_isWord (hfits₁.isWord hisWord₁) (hneat.words name (by simp) hisWord₁)
      have hforText : word.text = ['f', 'o', 'r'] := by simpa [Keyword.spellings] using hfor
      have hinText : second.text = ['i', 'n'] := by simpa [Keyword.spellings] using hin
      rw [hforText, hinText]
      refine ⟨g, g₁, g₂, g₃, g₄, marked, rfl, by simp [hg, hg₁, hg₂, hg₃, hlexes.nil_inv], ?_, hx, hplain⟩
      have hne₁ := (hends hisWord).gap_ne_nil (hx.head? _)
      have hne₂ := (hends₁ hisWord₁).gap_ne_nil (by rw [hinText]; rfl)
      have hne₃ := (hends₂ hisWord₂).gap_ne_nil (hplain.head? _ _)
      simp [hne₁, hne₂, hne₃]

end

/-! ## Sources -/

/-- The tokens of a piece are plainly written. -/
def Piece.PlainlyWritten : Piece → Prop
  | .text _ => True
  | .directive d body => ∃ start inner, Inside d false start body inner ∧ MailDialect.PlainlyWritten d inner

theorem Lexed.plainlyWritten {offset : Nat} {ps : List Piece} {ts : List Token} (h : Lexed offset ps ts)
    (hplain : ∀ b ∈ Token.blocks ts, b.PlainlyWritten) : ∀ p ∈ ps, p.PlainlyWritten := by
  induction h with
  | nil => simp
  | text _ ih =>
    rw [Token.blocks_text (by simp)] at hplain
    exact List.forall_mem_cons.2 ⟨trivial, ih (List.forall_mem_cons.1 hplain).2⟩
  | directive hinside _ ih =>
    rw [Token.blocks_enclosed hinside] at hplain
    obtain ⟨hhere, hmore⟩ := List.forall_mem_cons.1 hplain
    exact List.forall_mem_cons.2 ⟨⟨_, _, hinside, hhere⟩, ih hmore⟩

/-- What a plainly written piece says, its plainly written tokens say. -/
theorem Piece.PlainlyWritten.head {d : Delim} {body : Text} {start : Nat} {inner : List Token} {head : Head}
    (h : (Piece.directive d body).PlainlyWritten) (hd : d ≠ .comment) (hlexes : Lexes false start body inner)
    (hhead : IsHead d inner head) : ∃ start inner, Lexes false start body inner ∧ IsHead d inner head ∧
      MailDialect.PlainlyWritten d inner := by
  obtain ⟨place, inner', hinside, hplain⟩ := h
  have hlexes' : Lexes false place body inner' := by cases d <;> first | exact hinside | exact (hd rfl).elim
  refine ⟨place, inner', hlexes', ?_, hplain⟩
  rw [(hlexes.move place).unique hlexes']
  exact isHead_move start place hhead

/-- A plainly written source is a row of plainly written pieces that spell its template. -/
theorem Template.plain_pieces_of_parse {source ns : Text} {t : Template} (h : Template.parse source ns = .ok t)
    (hplain : source.PlainlyWritten) : ∃ ps, Row ps ∧ raws ps = source ∧ Blocks pieces ps (.nodes t) ∧
      ∀ p ∈ ps, p.PlainlyWritten := by
  obtain ⟨ps, hrow, rfl, hblocks, -⟩ := Template.pieces_of_parse h
  obtain ⟨ts, hts, hplain⟩ := hplain
  have hstands : Stands (raws ps) 0 ps := ⟨[], [], by simp, rfl⟩
  obtain ⟨ts', hlexed, -⟩ := tokens_of_pieces hblocks 0 hstands
  have hscan : Token.scan (raws ps) = .ok ts' := Token.scan_eq_ok_iff.2 (scans_iff_lexed.2 ⟨ps, hrow, rfl, hlexed⟩)
  rw [hscan] at hts
  cases hts
  exact ⟨ps, hrow, rfl, hblocks, hlexed.plainlyWritten hplain⟩

end MailDialect
