import MailDialect.Proofs.Quoting
import MailDialect.Template.Reader
import MailDialect.Token.Scanner

/-!
# What a lexeme can be

A lexeme has a text that fits its kind (`Lexeme.fits`), and a text that fits a kind is read as a
lexeme of that kind, whatever follows it, as long as the text after it does not run on
(`read_word`, `read_number`, `read_segment`, `read_string`, `read_comparison`).
-/

namespace MailDialect

open Unicode

/-! ## Characters -/

/-- The code points of white space. -/
def blankCodes : List Nat :=
  [9, 10, 11, 12, 13, 32, 0x85, 0xA0, 0x1680, 0x2000, 0x2001, 0x2002, 0x2003, 0x2004, 0x2005,
   0x2006, 0x2007, 0x2008, 0x2009, 0x200A, 0x2028, 0x2029, 0x202F, 0x205F, 0x3000]

theorem mem_blankCodes {c : Char} (h : isWhiteSpace c) : c.toNat ∈ blankCodes := by
  simp only [isWhiteSpace, whiteSpaceRanges, Ranges.has, Bool.or_eq_true, Bool.and_eq_true,
    decide_eq_true_eq, beq_iff_eq, List.any_cons, List.any_nil, Bool.or_false] at h
  simp only [blankCodes, List.mem_cons, List.not_mem_nil, or_false]
  rcases h with (rfl | h) | h
  · decide
  · omega
  · omega

/-- No word holds white space. -/
theorem not_isWhiteSpace_of_isWordChar {c : Char} (h : isWordChar c) : isWhiteSpace c = false := by
  have hcodes : ∀ n ∈ blankCodes, isWordChar (Char.ofNat n) = false := by decide +kernel
  by_contra hblank
  have hc := hcodes _ (mem_blankCodes (by simpa using hblank))
  rw [Char.ofNat_toNat, h] at hc
  cases hc

/-- No word starts with a digit. -/
theorem not_isDigit_of_isWordStart {c : Char} (h : isWordStart c) : c.isDigit = false := by
  by_contra hdigit
  simp only [Char.isDigit, Bool.not_eq_false, Bool.and_eq_true, decide_eq_true_eq] at hdigit
  have hlow : c.toNat < 0x80 := Nat.lt_of_le_of_lt (UInt32.le_iff_toNat_le.1 hdigit.2) (by decide)
  have hletter : c.isAlpha =
      (decide (c.val ≥ 'A'.val ∧ c.val ≤ 'Z'.val) || (c.val ≥ 'a'.val && c.val ≤ 'z'.val)) := rfl
  simp only [isWordStart, isAlphabetic, Ranges.has_of_ascii _ hlow, Bool.or_false, Bool.or_eq_true,
    beq_iff_eq, hletter, Bool.and_eq_true, decide_eq_true_eq] at h
  rcases h with (h | h) | rfl
  · exact absurd (UInt32.le_trans h.1 hdigit.2) (by decide)
  · exact absurd (UInt32.le_trans h.1 hdigit.2) (by decide)
  · exact absurd hdigit.2 (by decide)

theorem isWordChar_of_isDigit {c : Char} (h : c.isDigit) : isWordChar c := by
  simp [isWordChar, isNumeric_of_isDigit h]

theorem ne_of_isWordChar {c x : Char} (h : isWordChar c) (hx : isWordChar x = false) : c ≠ x := by
  rintro rfl; rw [h] at hx; cases hx

theorem chars_of_isWord {w : Text} (h : w.isWord) : w ≠ [] ∧ ∀ c ∈ w, isWordChar c := by
  cases w with
  | nil => cases h
  | cons c tail =>
    simp only [Text.isWord, Bool.and_eq_true, List.all_eq_true] at h
    exact ⟨by simp, List.forall_mem_cons.2 ⟨isWordChar_of_isWordStart h.1, h.2⟩⟩

/-! ## Where a lexeme ends -/

/-- The text after a word does not go on with the word. -/
def EndsWord (rest : Text) : Prop := ∀ c ∈ rest.head?, isWordChar c = false

/-- The text after a lexeme goes on with no word and no number. -/
def EndsLexeme (rest : Text) : Prop := ∀ c ∈ rest.head?, isWordChar c = false ∧ c ≠ '.'

theorem EndsLexeme.endsWord {rest : Text} (h : EndsLexeme rest) : EndsWord rest :=
  fun c hc => (h c hc).1

theorem EndsLexeme.nil : EndsLexeme [] := by simp [EndsLexeme]

theorem EndsLexeme.cons {c : Char} (rest : Text) (h : isWordChar c = false ∧ c ≠ '.') :
    EndsLexeme (c :: rest) := by simpa [EndsLexeme] using h

theorem takeWhile_append_of_ends {α : Type} {p : α → Bool} {w : List α} (hw : ∀ c ∈ w, p c) (rest : List α)
    (hr : ∀ c ∈ rest.head?, p c = false) :
    (w ++ rest).takeWhile p = w ∧ (w ++ rest).dropWhile p = rest := by
  rw [List.takeWhile_append_of_pos hw, List.dropWhile_append_of_pos hw]
  cases rest with
  | nil => simp
  | cons c rest => simp [hr c (by simp)]

/-! ## The text of a lexeme -/

/-- Digits, with a fraction or without. -/
def IsNumber (text : Text) : Prop :=
  ∃ whole : Text, whole ≠ [] ∧ (∀ c ∈ whole, c.isDigit) ∧
    (text = whole ∨ ∃ frac : Text, frac ≠ [] ∧ (∀ c ∈ frac, c.isDigit) ∧ text = whole ++ '.' :: frac)

/-- Digits alone. -/
def IsSegment (text : Text) : Prop := text ≠ [] ∧ ∀ c ∈ text, c.isDigit

/-- Whether a text is a lexeme of this kind; `afterDot` tells whether a point came before it. -/
def Token.Kind.Fits (afterDot : Bool) (text : Text) : Token.Kind → Prop
  | .name => text.isWord ∧ Keyword.ofWord? text = none
  | .keyword k => text.isWord ∧ Keyword.ofWord? text = some k
  | .number => IsNumber text ∧ (afterDot → IsSegment text)
  | .string value => ∃ quote rest found, Quoted.IsQuote quote ∧ Quoted.read quote rest = some found ∧
      text = quote :: found.written ∧ value = found.value
  | .punct p => ∃ c, text = [c] ∧ Punct.ofChar? c = some p
  | .comparison op => text = op.spelling
  | _ => False

namespace Lexeme

theorem all_takeWhile {p : Char → Bool} {text : Text} : ∀ c ∈ text.takeWhile p, p c := fun _ hc =>
  List.all_eq_true.1 List.all_takeWhile _ hc

theorem fits_number {segment : Bool} {c : Char} {rest : Text} {l : Lexeme} (hc : c.isDigit)
    (h : number segment (c :: rest) = .ok l) : l.kind.Fits segment l.text := by
  have hwhole : (c :: rest).takeWhile Char.isDigit ≠ [] := by simp [hc]
  unfold number at h
  simp only at h
  split at h
  · split at h
    · cases h
    · rename_i more _ hfrac
      rw [endNumber_eq_ok h]
      refine ⟨⟨_, hwhole, all_takeWhile, .inr ⟨_, ?_, all_takeWhile, rfl⟩⟩, by simp⟩
      simpa using hfrac
  · rw [endNumber_eq_ok h]
    exact ⟨⟨_, hwhole, all_takeWhile, .inl rfl⟩, fun _ => ⟨hwhole, all_takeWhile⟩⟩

theorem fits_word {b : Bool} {c : Char} {rest : Text} (hc : isWordStart c) :
    (word (c :: rest)).kind.Fits b (word (c :: rest)).text := by
  have hword : Text.isWord ((c :: rest).takeWhile isWordChar) := by
    simp only [List.takeWhile_cons, isWordChar_of_isWordStart hc, if_true, Text.isWord, hc, Bool.true_and]
    exact List.all_eq_true.2 all_takeWhile
  simp only [word, wordKind]
  split
  · rename_i k hk; exact ⟨hword, hk⟩
  · rename_i hk; exact ⟨hword, hk⟩

/-- **The text of a lexeme fits its kind.** -/
theorem fits {afterDot : Bool} {text : Text} {l : Lexeme} (h : read afterDot text = .ok l) :
    l.kind.Fits afterDot l.text := by
  unfold read at h
  split at h
  · cases h
  · split at h
    · cases h; rfl
    · split at h
      · rename_i p hp; cases h; exact ⟨_, rfl, hp⟩
      · split at h
        · rename_i c rest _ _ _ _ hquote
          split at h
          · rename_i found hfound
            cases h
            refine ⟨c, rest, found, ?_, hfound, rfl, rfl⟩
            simpa [Quoted.IsQuote, or_comm] using hquote
          · cases h
        · split at h
          · rename_i hdigit; exact fits_number hdigit h
          · split at h
            · rename_i hstart; cases h; exact fits_word hstart
            · cases h

/-! ## Reading a text that fits -/

section
variable {b : Bool} {c : Char} {rest : Text}

theorem comparison?_eq_none (h : isWordChar c) : comparison? (c :: rest) = none := by
  have heq : c ≠ '=' := ne_of_isWordChar h (by decide)
  have hne : c ≠ '!' := ne_of_isWordChar h (by decide)
  have hlt : c ≠ '<' := ne_of_isWordChar h (by decide)
  have hgt : c ≠ '>' := ne_of_isWordChar h (by decide)
  unfold comparison?
  split <;> simp_all

theorem ofChar?_eq_none (h : isWordChar c) : Punct.ofChar? c = none := by
  unfold Punct.ofChar?
  split <;> first | rfl | exact absurd h (by decide)

theorem read_of_isDigit (h : c.isDigit) : read b (c :: rest) = number b (c :: rest) := by
  have hc := isWordChar_of_isDigit h
  have hs : c ≠ '\'' := ne_of_isWordChar hc (by decide)
  have hd : c ≠ '"' := ne_of_isWordChar hc (by decide)
  simp [read, comparison?_eq_none hc, ofChar?_eq_none hc, hs, hd, h]

theorem read_of_isWordStart (h : isWordStart c) : read b (c :: rest) = .ok (word (c :: rest)) := by
  have hc := isWordChar_of_isWordStart h
  have hs : c ≠ '\'' := ne_of_isWordChar hc (by decide)
  have hd : c ≠ '"' := ne_of_isWordChar hc (by decide)
  simp [read, comparison?_eq_none hc, ofChar?_eq_none hc, hs, hd, not_isDigit_of_isWordStart h, h]

/-- A word is read as a whole. -/
theorem read_word {w : Text} (hw : w.isWord) (hr : EndsWord rest) :
    read b (w ++ rest) = .ok ⟨wordKind w, w, rest⟩ := by
  obtain ⟨htake, hdrop⟩ := takeWhile_append_of_ends (chars_of_isWord hw).2 rest hr
  cases w with
  | nil => cases hw
  | cons c tail =>
    simp only [Text.isWord, Bool.and_eq_true] at hw
    rw [List.cons_append, read_of_isWordStart hw.1, ← List.cons_append]
    simp only [word, htake, hdrop]

theorem endNumber_of_ends {digits : Text} (hr : ∀ x ∈ rest.head?, isWordChar x = false ∧ (x ≠ '.' ∨ b)) :
    endNumber b digits rest = .ok ⟨.number, digits, rest⟩ := by
  cases rest with
  | nil => rfl
  | cons x more =>
    obtain ⟨hx, hdot⟩ := hr x (by simp)
    have : (isWordChar x || (x == '.' && !b)) = false := by
      rcases hdot with h | h <;> simp [hx, h]
    simp [endNumber, this]

theorem read_of_digits {digits : Text} (hs : IsSegment digits) :
    read b (digits ++ rest) = number b (digits ++ rest) := by
  obtain ⟨hne, hall⟩ := hs
  obtain ⟨c, tail, rfl⟩ := List.exists_cons_of_ne_nil hne
  exact read_of_isDigit (hall c (by simp))

theorem not_isDigit_of_endsWord (hr : EndsWord rest) : ∀ x ∈ rest.head?, x.isDigit = false := by
  intro x hx
  by_contra h
  have hword := isWordChar_of_isDigit (by simpa using h)
  rw [hr x hx] at hword
  cases hword

/-- Digits after a point are read as a segment. -/
theorem read_segment {digits : Text} (hs : IsSegment digits) (hr : EndsWord rest) :
    read true (digits ++ rest) = .ok ⟨.number, digits, rest⟩ := by
  obtain ⟨htake, hdrop⟩ := takeWhile_append_of_ends hs.2 rest (not_isDigit_of_endsWord hr)
  rw [read_of_digits hs]
  simp only [number, htake, hdrop]
  exact endNumber_of_ends fun x hx => ⟨hr x hx, .inr rfl⟩

/-- A number is read with its fraction. -/
theorem read_number {digits : Text} (hn : IsNumber digits) (hr : EndsLexeme rest) :
    read false (digits ++ rest) = .ok ⟨.number, digits, rest⟩ := by
  have hstop := not_isDigit_of_endsWord hr.endsWord
  have hend : endNumber false digits rest = .ok ⟨.number, digits, rest⟩ :=
    endNumber_of_ends fun x hx => ⟨(hr x hx).1, .inl (hr x hx).2⟩
  obtain ⟨whole, hne, hall, rfl | ⟨frac, hfne, hfall, rfl⟩⟩ := hn
  · obtain ⟨htake, hdrop⟩ := takeWhile_append_of_ends hall rest hstop
    rw [read_of_digits ⟨hne, hall⟩]
    unfold number
    simp only [htake, hdrop]
    split
    · exact absurd rfl (hr '.' (by simp)).2
    · exact hend
  · obtain ⟨htake, hdrop⟩ := takeWhile_append_of_ends hall ('.' :: (frac ++ rest)) (by simp)
    obtain ⟨hftake, hfdrop⟩ := takeWhile_append_of_ends hfall rest hstop
    rw [List.append_assoc, List.cons_append, read_of_digits ⟨hne, hall⟩]
    unfold number
    simp only [htake, hdrop, hftake, hfdrop]
    rw [if_neg (by simpa using hfne)]
    exact hend

/-- A written string is read as its value. -/
theorem read_string (value : Text) :
    read b (Quoted.write value ++ rest) = .ok ⟨.string value, Quoted.write value, rest⟩ := by
  have hread := Quoted.read_write value rest
  simp only [Quoted.write, List.cons_append, List.append_assoc, List.nil_append] at hread ⊢
  rcases Quoted.isQuote_quoteFor value with hq | hq <;> rw [hq] at hread ⊢ <;>
    simp [read, comparison?, Punct.ofChar?, hread]

/-- A comparison is read up to the blank after it. -/
theorem read_comparison (op : Comparison) :
    read b (op.spelling ++ ' ' :: rest) = .ok ⟨.comparison op, op.spelling, ' ' :: rest⟩ := by
  cases op <;> rfl

end

end Lexeme

/-! ## Words among the tokens -/

/-- Names and reserved words are words. -/
def Token.Kind.isWord : Token.Kind → Bool
  | .name => true
  | .keyword _ => true
  | _ => false

theorem isWordStart_of_isWord {w : Text} (h : w.isWord) : w.head?.any isWordStart := by
  cases w with
  | nil => cases h
  | cons c tail => simpa [Text.isWord] using And.left (by simpa [Text.isWord] using h)

theorem not_isWordStart_of_isNumber {text : Text} (h : IsNumber text) : text.head?.any isWordStart = false := by
  have hdigit : ∀ c : Char, c.isDigit → isWordStart c = false := by
    intro c hc
    by_contra hs
    rw [not_isDigit_of_isWordStart (by simpa using hs)] at hc
    cases hc
  obtain ⟨whole, hne, hall, h⟩ := h
  obtain ⟨c, tail, rfl⟩ := List.exists_cons_of_ne_nil hne
  have := hdigit c (hall c (by simp))
  rcases h with rfl | ⟨frac, -, -, rfl⟩ <;> simpa using this

/-- A lexeme starts like a word exactly if it is one. -/
theorem Token.isWordLike_of_fits {b : Bool} {t : Token} (h : t.kind.Fits b t.text) :
    t.isWordLike = t.kind.isWord := by
  obtain ⟨kind, text, offset⟩ := t
  simp only [Token.isWordLike] at h ⊢
  cases kind with
  | text | opener | closer => exact h.elim
  | name | keyword => exact isWordStart_of_isWord h.1
  | number => exact not_isWordStart_of_isNumber h.1
  | string value =>
    obtain ⟨quote, rest, found, hq, -, rfl, -⟩ := h
    rcases hq with rfl | rfl <;> rfl
  | comparison op => subst h; cases op <;> rfl
  | punct p =>
    obtain ⟨c, rfl, hc⟩ := h
    have : isWordStart c = false := by
      by_contra hs
      rw [Lexeme.ofChar?_eq_none (isWordChar_of_isWordStart (by simpa using hs))] at hc
      cases hc
    simpa [Token.Kind.isWord] using this

end MailDialect
