import MailDialect.Text.Quoted
import MailDialect.Token
import Mathlib.Data.List.Chain

/-!
# Quoted strings read back

A string literal is written so that reading it gives the value again (`read_write`), and neither
reading nor writing brings a closing delimiter about: a delimiter in a value stands in the literal
it was read from, and a delimiter in a literal stands in the value it was written for.
-/

namespace MailDialect

/-- No closing delimiter of `d` stands in a text. -/
def Delim.Absent (d : Delim) (text : Text) : Prop :=
  text.IsChain fun a b => ¬(a = d.mark.2 ∧ b = '}')

theorem Delim.absent_nil (d : Delim) : d.Absent [] := List.isChain_nil

theorem Delim.absent_cons {d : Delim} {c : Char} {text : Text} :
    d.Absent (c :: text) ↔ (c = d.mark.2 → text.head? ≠ some '}') ∧ d.Absent text := by
  simp only [Delim.Absent, List.isChain_cons, and_congr_left_iff]
  intro _
  cases text <;> simp [not_and]

/-- Only a closing brace, a percent sign or a hash sign starts a closing delimiter. -/
theorem Delim.ne_mark {d : Delim} {c : Char} (h : c ≠ '}' ∧ c ≠ '%' ∧ c ≠ '#') :
    c ≠ d.mark.2 := by
  cases d <;> simp [Delim.mark, h]

namespace Quoted

/-- The two quotes. -/
def IsQuote (c : Char) : Prop := c = '"' ∨ c = '\''

theorem isQuote_quoteFor (value : Text) : IsQuote (quoteFor value) := by
  unfold quoteFor IsQuote; split <;> simp

theorem isQuote_ne_backslash {q : Char} (h : IsQuote q) : ('\\' == q) = false := by
  rcases h with rfl | rfl <;> rfl

/-! ## Reading what was written -/

/-- A plain character: one that is written as it is. -/
def IsPlain (quote c : Char) : Prop := c ≠ '\n' ∧ c ≠ '\t' ∧ c ≠ '\\' ∧ c ≠ quote

theorem writeBody_plain {quote c : Char} (rest : Text) (h : IsPlain quote c) :
    writeBody quote (c :: rest) = c :: writeBody quote rest := by
  simp [writeBody, h.1, h.2.1, h.2.2.1, h.2.2.2]

/-- A character that a backslash may stand before is plain, and no escape with it. -/
theorem plain_of_not_sensitive {quote c : Char} (hq : IsQuote quote)
    (h : isEscapeSensitive c = false) : IsPlain quote c ∧ unescape c = ['\\', c] := by
  simp only [isEscapeSensitive, Bool.or_eq_false_iff, beq_eq_false_iff_ne] at h
  obtain ⟨⟨⟨⟨⟨⟨hn, ht⟩, hb⟩, hd⟩, hs⟩, hnl⟩, htab⟩ := h
  refine ⟨⟨hnl, htab, hb, ?_⟩, by simp [unescape, hn, ht, hb, hd, hs]⟩
  rcases hq with rfl | rfl <;> assumption

/-- One escape: a backslash and the character after it. -/
theorem read_escape {quote e : Char} {body rest value : Text} (hq : IsQuote quote)
    (ih : read quote (body ++ quote :: rest) = some ⟨value, body ++ [quote], rest⟩) :
    read quote ('\\' :: e :: body ++ quote :: rest)
      = some ⟨unescape e ++ value, '\\' :: e :: body ++ [quote], rest⟩ := by
  simp only [List.cons_append]
  rw [read.eq_def]
  simp [isQuote_ne_backslash hq, ih]

theorem read_plain {quote c : Char} {body rest value : Text} (hc : IsPlain quote c)
    (ih : read quote (body ++ quote :: rest) = some ⟨value, body ++ [quote], rest⟩) :
    read quote (c :: body ++ quote :: rest) = some ⟨c :: value, c :: body ++ [quote], rest⟩ := by
  simp only [List.cons_append]
  rw [read.eq_def]
  simp [hc.2.2.1, hc.2.2.2, ih]

/-- Reading what was written between two quotes gives the value. A backslash that is not doubled is
read together with the character after it, so two characters of the value go at once. -/
theorem read_writeBody {quote : Char} (hq : IsQuote quote) (rest : Text) : ∀ value : Text,
    read quote (writeBody quote value ++ quote :: rest)
      = some ⟨value, writeBody quote value ++ [quote], rest⟩
  | [] => by simp [writeBody, read.eq_def quote (quote :: rest)]
  | c :: more => by
    have ih := read_writeBody hq rest more
    by_cases hnl : c = '\n'
    · subst hnl; exact read_escape hq ih
    by_cases htab : c = '\t'
    · subst htab; exact read_escape hq ih
    by_cases hb : c = '\\'
    · subst hb
      cases more with
      | nil => exact read_escape hq ih
      | cons x tail =>
        cases hx : isEscapeSensitive x with
        | true =>
          have hw : writeBody quote ('\\' :: x :: tail) = '\\' :: '\\' :: writeBody quote (x :: tail) := by
            conv => lhs; unfold writeBody
            simp [hx]
          rw [hw]; exact read_escape hq ih
        | false =>
          obtain ⟨hplain, hun⟩ := plain_of_not_sensitive hq hx
          have hw : writeBody quote ('\\' :: x :: tail) = '\\' :: x :: writeBody quote tail := by
            conv => lhs; unfold writeBody
            simp [hx, writeBody_plain tail hplain]
          have := read_escape (e := x) hq (read_writeBody hq rest tail)
          rw [hw, this, hun]; rfl
    by_cases hquote : c = quote
    · subst hquote
      have hw : writeBody c (c :: more) = '\\' :: c :: writeBody c more := by
        simp [writeBody, hnl, htab, hb]
      have hun : unescape c = [c] := by rcases hq with rfl | rfl <;> rfl
      have := read_escape (e := c) hq ih
      rw [hw, this, hun]; rfl
    · have hplain : IsPlain quote c := ⟨hnl, htab, hb, hquote⟩
      rw [writeBody_plain more hplain]
      exact read_plain hplain ih

/-- **A written string reads back.** -/
theorem read_write (value rest : Text) :
    read (quoteFor value) (writeBody (quoteFor value) value ++ quoteFor value :: rest)
      = some ⟨value, writeBody (quoteFor value) value ++ [quoteFor value], rest⟩ :=
  read_writeBody (isQuote_quoteFor value) rest value

/-! ## Closing delimiters -/

theorem ne_mark_of_isQuote {d : Delim} {q : Char} (h : IsQuote q) : q ≠ d.mark.2 := by
  rcases h with rfl | rfl <;> exact Delim.ne_mark (by decide)

/-- What an escape stands for starts with no brace, and ends a delimiter's start only if the
escape does. -/
theorem absent_unescape {d : Delim} {e : Char} {value : Text} (he : e = d.mark.2 → value.head? ≠ some '}')
    (hv : d.Absent value) : d.Absent (unescape e ++ value) := by
  have hnl : '\n' ≠ d.mark.2 := Delim.ne_mark (by decide)
  have htab : '\t' ≠ d.mark.2 := Delim.ne_mark (by decide)
  have hb : '\\' ≠ d.mark.2 := Delim.ne_mark (by decide)
  unfold unescape
  split
  · simp [Delim.absent_cons, hnl, hv]
  split
  · simp [Delim.absent_cons, htab, hv]
  split
  · exact Delim.absent_cons.2 ⟨he, hv⟩
  · exact Delim.absent_cons.2 ⟨fun h => absurd h hb, Delim.absent_cons.2 ⟨he, hv⟩⟩

theorem head?_unescape (e : Char) (value : Text) : (unescape e ++ value).head? ≠ some '}' := by
  unfold unescape
  split
  · simp
  split
  · simp
  split
  · rename_i h; simp only [Bool.or_eq_true, beq_iff_eq] at h
    rcases h with (rfl | rfl) | rfl <;> simp
  · simp

/-- A value that starts with a brace is read from a literal that does. -/
theorem head?_written {quote : Char} {text : Text} {found : Found} (h : read quote text = some found)
    (hv : found.value.head? = some '}') : found.written.head? = some '}' := by
  fun_induction read quote text generalizing found with
  | case1 => simp at h
  | case2 c rest hc => cases h; simp at hv
  | case3 => simp at h
  | case4 c _ _ escaped more _ =>
    obtain ⟨inner, -, rfl⟩ := Option.map_eq_some_iff.1 h
    exact absurd hv (head?_unescape _ _)
  | case5 c rest _ _ _ =>
    obtain ⟨inner, -, rfl⟩ := Option.map_eq_some_iff.1 h
    simpa using hv

/-- **Reading brings no delimiter about**: one in the value stands in the literal. -/
theorem absent_value {d : Delim} {quote : Char} {text : Text} {found : Found}
    (h : read quote text = some found) (hw : d.Absent found.written) : d.Absent found.value := by
  fun_induction read quote text generalizing found with
  | case1 => simp at h
  | case2 c rest hc => cases h; exact d.absent_nil
  | case3 => simp at h
  | case4 c _ _ escaped more ih =>
    obtain ⟨inner, hinner, rfl⟩ := Option.map_eq_some_iff.1 h
    simp only [Delim.absent_cons] at hw
    exact absent_unescape (fun he hhead => hw.2.1 he (head?_written hinner hhead)) (ih hinner hw.2.2)
  | case5 c rest _ _ ih =>
    obtain ⟨inner, hinner, rfl⟩ := Option.map_eq_some_iff.1 h
    simp only [Delim.absent_cons] at hw ⊢
    exact ⟨fun hc hhead => hw.1 hc (head?_written hinner hhead), ih hinner hw.2⟩

theorem head?_writeBody {quote : Char} {value : Text}
    (h : (writeBody quote value).head? = some '}') : value.head? = some '}' := by
  cases value with
  | nil => simp [writeBody] at h
  | cons c rest =>
    revert h
    unfold writeBody
    simp only
    split
    · simp
    split
    · simp
    split
    · split <;> simp
    split <;> simp

/-- **Writing brings no delimiter about**: one in the literal stands in the value. -/
theorem absent_writeBody {d : Delim} {quote : Char} (hq : IsQuote quote) {value : Text}
    (h : d.Absent value) : d.Absent (writeBody quote value) := by
  have hb : '\\' ≠ d.mark.2 := Delim.ne_mark (by decide)
  have hn : 'n' ≠ d.mark.2 := Delim.ne_mark (by decide)
  have ht : 't' ≠ d.mark.2 := Delim.ne_mark (by decide)
  induction value with
  | nil => exact d.absent_nil
  | cons c rest ih =>
    rw [Delim.absent_cons] at h
    have ih := ih h.2
    unfold writeBody
    simp only
    split
    · simp [Delim.absent_cons, hb, hn, ih]
    split
    · simp [Delim.absent_cons, hb, ht, ih]
    split
    · split <;> simp [Delim.absent_cons, hb, ih]
    split
    · rename_i hc; rw [beq_iff_eq] at hc; subst hc
      simp [Delim.absent_cons, hb, ne_mark_of_isQuote hq, ih]
    · simp only [List.cons_append, List.nil_append, Delim.absent_cons]
      exact ⟨fun hc hhead => h.1 hc (head?_writeBody hhead), ih⟩

/-- A literal holds no delimiter but one of its value: the quotes around it are part of none. -/
theorem absent_write {d : Delim} {value : Text} (h : d.Absent value) : d.Absent (write value) := by
  have hq := isQuote_quoteFor value
  have hbrace : quoteFor value ≠ '}' := by rcases hq with hq | hq <;> rw [hq] <;> decide
  refine Delim.absent_cons.2 ⟨fun hmark => (ne_mark_of_isQuote hq hmark).elim, ?_⟩
  exact List.isChain_append.2 ⟨absent_writeBody hq h, List.isChain_singleton _, by simp [hbrace]⟩

/-- A literal that escapes nothing is its value between two quotes. -/
theorem written_of_plain {quote : Char} {text : Text} {found : Found} (h : read quote text = some found)
    (hplain : '\\' ∉ found.written) : found.written = found.value ++ [quote] ∧ quote ∉ found.value := by
  fun_induction read quote text generalizing found with
  | case1 => simp at h
  | case2 c rest hc =>
    cases h
    rw [beq_iff_eq] at hc
    simp [hc]
  | case3 => simp at h
  | case4 c _ hescape escaped more ih =>
    obtain ⟨inner, -, rfl⟩ := Option.map_eq_some_iff.1 h
    rw [beq_iff_eq] at hescape
    simp [hescape] at hplain
  | case5 c rest hc _ ih =>
    obtain ⟨inner, hinner, rfl⟩ := Option.map_eq_some_iff.1 h
    rw [List.mem_cons, not_or] at hplain
    obtain ⟨hwritten, hvalue⟩ := ih hinner hplain.2
    rw [beq_iff_eq] at hc
    exact ⟨by simp [hwritten], List.not_mem_cons_of_ne_of_not_mem (Ne.symm hc) hvalue⟩

end Quoted

end MailDialect
