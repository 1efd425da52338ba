import MailDialect.Token.Lexeme
import MailDialect.Unicode.WhiteSpace

/-!
# Scanning a template

A scanner stands somewhere in a template, either in plain markup or inside a directive. The closer
of a directive is looked up when its opener is read, so the first closer after an opener always ends
the directive, whatever stands between them. Main statement: every token read leaves less to read
(`Scanner.length_unread_lt`), so a template has finitely many tokens (`Token.scan`).
-/

namespace MailDialect

open Unicode

/-! ## Delimiters in a text -/

namespace Delim

/-- The directive that opens at the front of a text, and the text after its opener. -/
def opening? : Text → Option (Delim × Text)
  | '{' :: c :: rest => (ofMark? c).map fun d => (d, rest)
  | _ => none

/-- The text after the closer of `d`, if the text starts with it. -/
def closing? (d : Delim) : Text → Option Text
  | c :: '}' :: rest => if c == d.mark.2 then some rest else none
  | _ => none

/-- Divides a text at the first place where a directive opens. -/
def untilOpener : Text → Text × Text
  | [] => ([], [])
  | c :: rest =>
    if (opening? (c :: rest)).isSome then ([], c :: rest)
    else
      let split := untilOpener rest
      (c :: split.1, split.2)

/-- The text before the first closer of `d`, and the text after it. -/
def untilCloser (d : Delim) : Text → Option (Text × Text)
  | [] => none
  | c :: rest =>
    match d.closing? (c :: rest) with
    | some after => some ([], after)
    | none => (d.untilCloser rest).map fun split => (c :: split.1, split.2)

@[simp] theorem length_closer (d : Delim) : d.closer.length = 2 := rfl

theorem opener_append_of_opening? {text rest : Text} {d : Delim}
    (h : opening? text = some (d, rest)) : d.opener ++ rest = text := by
  unfold opening? at h
  split at h
  · rename_i c rest'
    simp only [Option.map_eq_some_iff, Prod.mk.injEq] at h
    obtain ⟨d', hd, rfl, rfl⟩ := h
    have hc : d'.mark.1 = c := by
      unfold ofMark? at hd
      split at hd
      · cases hd; simp_all [mark]
      · split at hd
        · cases hd; simp_all [mark]
        · split at hd
          · cases hd; simp_all [mark]
          · cases hd
    simp [opener, hc]
  · cases h

theorem closer_append_of_closing? {d : Delim} {text rest : Text}
    (h : d.closing? text = some rest) : d.closer ++ rest = text := by
  unfold closing? at h
  split at h
  · split at h
    · cases h
      simp_all [closer]
    · cases h
  · cases h

/-- Dividing at an opener loses nothing. -/
theorem untilOpener_append (text : Text) : (untilOpener text).1 ++ (untilOpener text).2 = text := by
  induction text with
  | nil => rfl
  | cons c rest ih =>
    rw [untilOpener]
    split
    · rfl
    · simp [ih]

/-- Dividing at a closer loses nothing. -/
theorem untilCloser_append {d : Delim} {text body after : Text}
    (h : d.untilCloser text = some (body, after)) : body ++ d.closer ++ after = text := by
  induction text generalizing body with
  | nil => simp [untilCloser] at h
  | cons c rest ih =>
    rw [untilCloser] at h
    split at h
    · rename_i hclosing
      cases h
      exact closer_append_of_closing? hclosing
    · simp only [Option.map_eq_some_iff, Prod.mk.injEq] at h
      obtain ⟨⟨body', after'⟩, hsplit, rfl, rfl⟩ := h
      simp [← ih hsplit]

/-- Markup that opens no directive at its front has a first character of plain text. -/
theorem untilOpener_fst_ne_nil {c : Char} {rest : Text} (h : opening? (c :: rest) = none) :
    (untilOpener (c :: rest)).1 ≠ [] := by
  simp [untilOpener, h]

end Delim

/-! ## The scanner -/

/-- What lies ahead of a scanner. -/
inductive Scanner.Region
  /-- Plain markup, with directives still to come. -/
  | markup (rest : Text)
  /-- The unread `body` of a directive, which its closer and then `after` follow. -/
  | directive (d : Delim) (body after : Text)
deriving DecidableEq, Repr

/-- A place in a template. -/
structure Scanner where
  region : Scanner.Region
  /-- The byte of the source that comes next. -/
  offset : Nat
  /-- Whether the last token was a point, which makes digits a path segment. -/
  afterDot : Bool
deriving DecidableEq, Repr

/-- One step of a scanner. -/
inductive Scanner.Step
  | finished
  | failed (error : ScanError) (next : Scanner)
  | token (t : Token) (next : Scanner)
deriving DecidableEq, Repr

namespace Scanner

/-- The scanner at the start of a template. -/
def start (source : Text) : Scanner :=
  ⟨.markup source, 0, false⟩

/-- Everything a scanner has still to read. -/
def unread (s : Scanner) : Text :=
  match s.region with
  | .markup rest => rest
  | .directive d body after => body ++ d.closer ++ after

/-- A token of kind `kind` and text `text` is read here, and `region` lies after it. -/
def advance (s : Scanner) (kind : Token.Kind) (text : Text) (region : Region) : Step :=
  .token ⟨kind, text, s.offset⟩
    ⟨region, s.offset + Text.byteSize text, kind == .punct .dot⟩

/-- A step in plain markup: the opener of a directive that is closed later, or the text up to the
next opener. -/
def stepMarkup (s : Scanner) (rest : Text) : Step :=
  match rest with
  | [] => .finished
  | _ :: _ =>
    match Delim.opening? rest with
    | some (d, inside) =>
      match d.untilCloser inside with
      | some (body, after) => s.advance (.opener d) d.opener (.directive d body after)
      | none => .failed ⟨s.offset, .unclosedDirective d⟩ s
    | none =>
      let split := Delim.untilOpener rest
      s.advance .text split.1 (.markup split.2)

/-- A step in a comment, whose body is one piece of text. -/
def stepComment (s : Scanner) (body after : Text) : Step :=
  match body with
  | [] => s.advance (.closer .comment) (Delim.closer .comment) (.markup after)
  | _ => s.advance .text body (.directive .comment [] after)

/-- A step in a variable or a tag: white space is skipped, then comes a lexeme or the closer. -/
def stepDirective (s : Scanner) (d : Delim) (body after : Text) : Step :=
  let gap := body.takeWhile isWhiteSpace
  let ahead := body.dropWhile isWhiteSpace
  let here : Scanner := ⟨.directive d ahead after, s.offset + Text.byteSize gap, s.afterDot⟩
  match ahead with
  | [] => here.advance (.closer d) d.closer (.markup after)
  | _ =>
    match Lexeme.read s.afterDot ahead with
    | .ok lexeme => here.advance lexeme.kind lexeme.text (.directive d lexeme.rest after)
    | .error fault => .failed ⟨here.offset + fault.distance, fault.problem⟩ here

/-- Reads the next token. -/
def step (s : Scanner) : Step :=
  match s.region with
  | .markup rest => s.stepMarkup rest
  | .directive .comment body after => s.stepComment body after
  | .directive d body after => s.stepDirective d body after

/-! ## Every token leaves less to read -/

theorem length_unread_lt_of_advance {s next : Scanner} {kind : Token.Kind} {text : Text}
    {region : Region} {t : Token} {n : Nat} (h : s.advance kind text region = .token t next)
    (hregion : (unread ⟨region, 0, false⟩).length < n) : next.unread.length < n := by
  cases h
  exact hregion

theorem length_unread_lt_of_stepMarkup {s next : Scanner} {rest : Text} {t : Token}
    (h : s.stepMarkup rest = .token t next) : next.unread.length < rest.length := by
  unfold stepMarkup at h
  split at h
  · cases h
  · split at h
    · rename_i d inside hopening
      split at h
      · rename_i body after hcloser
        refine length_unread_lt_of_advance h ?_
        rw [← Delim.opener_append_of_opening? hopening, ← Delim.untilCloser_append hcloser]
        simp only [unread, Delim.opener, List.cons_append, List.nil_append, List.length_cons]
        omega
      · cases h
    · rename_i c more _ hopening
      refine length_unread_lt_of_advance h ?_
      have hsplit := congrArg List.length (Delim.untilOpener_append (c :: more))
      have hpos := List.length_pos_iff.2 (Delim.untilOpener_fst_ne_nil hopening)
      rw [List.length_append] at hsplit
      simp only [unread]
      omega

theorem length_unread_lt_of_stepComment {s next : Scanner} {body after : Text} {t : Token}
    (h : s.stepComment body after = .token t next) :
    next.unread.length < (body ++ Delim.closer .comment ++ after).length := by
  unfold stepComment at h
  split at h
  · refine length_unread_lt_of_advance h ?_
    simp only [unread, List.length_append, List.length_nil, Delim.length_closer]
    omega
  · rename_i hbody
    have hpos := List.length_pos_iff.2 hbody
    refine length_unread_lt_of_advance h ?_
    simp only [unread, List.length_append, List.length_nil, Delim.length_closer]
    omega

theorem length_unread_lt_of_stepDirective {s next : Scanner} {d : Delim} {body after : Text}
    {t : Token} (h : s.stepDirective d body after = .token t next) :
    next.unread.length < (body ++ d.closer ++ after).length := by
  have hbody := congrArg List.length
    (List.takeWhile_append_dropWhile (p := isWhiteSpace) (l := body))
  rw [List.length_append] at hbody
  unfold stepDirective at h
  simp only at h
  split at h
  · refine length_unread_lt_of_advance h ?_
    simp only [unread, List.length_append, Delim.length_closer]
    omega
  · split at h
    · rename_i lexeme hlexeme
      have hahead := congrArg List.length (Lexeme.text_append_rest hlexeme)
      have hpos := List.length_pos_iff.2 (Lexeme.text_ne_nil hlexeme)
      rw [List.length_append] at hahead
      refine length_unread_lt_of_advance h ?_
      simp only [unread, List.length_append, Delim.length_closer]
      omega
    · cases h

/-- A token read leaves less to read. -/
theorem length_unread_lt {s next : Scanner} {t : Token} (h : s.step = .token t next) :
    next.unread.length < s.unread.length := by
  obtain ⟨region, offset, afterDot⟩ := s
  match region with
  | .markup _ => exact length_unread_lt_of_stepMarkup h
  | .directive .comment _ _ => exact length_unread_lt_of_stepComment h
  | .directive .var _ _ => exact length_unread_lt_of_stepDirective h
  | .directive .tag _ _ => exact length_unread_lt_of_stepDirective h

/-- All tokens from here on, up to the end of the template or to the first error. -/
def drain (s : Scanner) : List Token × Option ScanError :=
  match _h : s.step with
  | .finished => ([], none)
  | .failed error _ => ([], some error)
  | .token t next =>
    let more := next.drain
    (t :: more.1, more.2)
termination_by s.unread.length
decreasing_by exact length_unread_lt _h

end Scanner

def Token.scan (source : Text) : Except ScanError (List Token) :=
  match (Scanner.start source).drain with
  | (tokens, none) => .ok tokens
  | (_, some error) => .error error

end MailDialect
