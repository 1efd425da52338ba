import MailDialect.Proofs.Slices
import MailDialect.Token.Stream

/-!
# Streams in use

A stream can be asked for items and for tokens in any order, also after an error, and copies of it can be
set aside and taken up again. Whatever is done with it, its scanner stands between two characters of the
source, in plain markup or inside a directive whose closer is the first behind the opener, so that
everything it takes out of the source is there; and an error stays: whoever asks for a token again gets
the same error. Main statement: `Session.scans_soundly`.
-/

namespace MailDialect

open Unicode Relation

/-! ## Texts in a source -/

/-- A text stands in a source at a byte place: it starts and ends between two characters of the source. -/
def Text.HasAt (source : Text) (start : Nat) (piece : Text) : Prop :=
  ∃ before after, source = before ++ piece ++ after ∧ Text.byteSize before = start

section
variable {source a b : Text} {start : Nat}

theorem Text.HasAt.left (h : source.HasAt start (a ++ b)) : source.HasAt start a := by
  obtain ⟨before, after, hsource, hsize⟩ := h
  exact ⟨before, b ++ after, by simp [hsource], hsize⟩

theorem Text.HasAt.right (h : source.HasAt start (a ++ b)) : source.HasAt (start + Text.byteSize a) b := by
  obtain ⟨before, after, hsource, hsize⟩ := h
  exact ⟨before ++ a, after, by simp [hsource], by simp [hsize]⟩

end

/-! ## Faults -/

/-- A fault lies before the end of the text in which a lexeme was looked for. -/
structure Lexeme.Fault.LiesIn (text : Text) (fault : Lexeme.Fault) : Prop where
  distance : fault.distance < Text.byteSize text
  problem : fault.problem ≠ .endOfDirective

namespace Lexeme

section
variable {text rest : Text} {fault : Fault}

theorem liesIn_of_endNumber {segment : Bool} {digits : Text} (h : endNumber segment digits rest = .error fault) :
    fault.LiesIn (digits ++ rest) := by
  unfold endNumber at h
  split at h
  · cases h
  · split at h
    · cases h
      refine ⟨?_, by simp⟩
      rw [Text.byteSize_append]
      exact Nat.lt_add_of_pos_right Text.byteSize_pos
    · cases h

theorem liesIn_of_number {segment : Bool} {c : Char} (h : number segment (c :: rest) = .error fault) :
    fault.LiesIn (c :: rest) := by
  have hdigits := List.takeWhile_append_dropWhile (p := Char.isDigit) (l := c :: rest)
  unfold number at h
  simp only at h
  split at h
  · rename_i frac hfrac
    split at h
    · cases h
      exact ⟨Text.byteSize_pos, by simp⟩
    · have hall := liesIn_of_endNumber h
      rwa [List.append_assoc, List.cons_append, List.takeWhile_append_dropWhile, ← hfrac, hdigits] at hall
  · have hall := liesIn_of_endNumber h
    rwa [hdigits] at hall

/-- Where there is a character to start from, a fault lies in the text and is not its end. -/
theorem liesIn_of_read {afterDot : Bool} {c : Char} (h : read afterDot (c :: rest) = .error fault) :
    fault.LiesIn (c :: rest) := by
  unfold read at h
  simp only at h
  split at h
  · cases h
  · split at h
    · cases h
    · split at h
      · split at h
        · cases h
        · cases h
          exact ⟨Text.byteSize_pos, by simp⟩
      · split at h
        · exact liesIn_of_number h
        · split at h
          · cases h
          · cases h
            exact ⟨Text.byteSize_pos, by simp⟩

end

end Lexeme

/-! ## Scanners in a source -/

namespace Scanner

/-- A scanner is asked for a token, and hands one out or fails. -/
inductive Moves : Scanner → Scanner → Prop
  | token {s next : Scanner} {t : Token} (hstep : s.step = .token t next) : Moves s next
  | failed {s next : Scanner} {e : ScanError} (hstep : s.step = .failed e next) : Moves s next

/-- A scanner that read the opener of a directive has come into it: it has seen a part of what stands
between the delimiters, and the closer is the first behind the opener. -/
structure Opened (source : Text) (opening s : Scanner) (d : Delim) (before seen body after : Text) : Prop where
  reached : ReflTransGen Moves (start source) opening
  moves : ∃ next, opening.step = .token ⟨.opener d, d.opener, Text.byteSize before⟩ next ∧ ReflTransGen Moves next s
  source : source = before ++ d.enclose (seen ++ body) ++ after
  closes : d.Closes (seen ++ body)
  place : s.offset = Text.byteSize before + 2 + Text.byteSize seen

/-- A scanner has come to a place of a source, in plain markup or inside a directive. -/
def Placed (source : Text) (s : Scanner) : Prop :=
  match s.region with
  | .markup rest => ReflTransGen Moves (start source) s ∧
      ∃ before, source = before ++ rest ∧ s.offset = Text.byteSize before
  | .directive d body after => ∃ opening before seen, Opened source opening s d before seen body after

/-- What a step does at a place of a source. After an error the next step fails in the same way. -/
def Step.Sound (source : Text) : Step → Prop
  | .finished => True
  | .failed e next => next.Placed source ∧ next.step = .failed e next ∧ e.offset < Text.byteSize source ∧
      e.problem ≠ .endOfDirective
  | .token t next => next.Placed source ∧ t.StandsIn source

section
variable {source : Text} {s opening next : Scanner} {d : Delim} {before seen body after : Text}

/-- A part of the body has been read, and a part is left. -/
theorem Opened.advance {part rest : Text} (h : Opened source opening s d before seen (part ++ rest) after)
    (hmoves : Moves s next) (hoffset : next.offset = s.offset + Text.byteSize part) :
    Opened source opening next d before (seen ++ part) rest after := by
  obtain ⟨hreached, ⟨inside, hopening, hinside⟩, hsource, hcloses, hplace⟩ := h
  rw [← List.append_assoc] at hsource hcloses
  refine ⟨hreached, ⟨inside, hopening, hinside.tail hmoves⟩, hsource, hcloses, ?_⟩
  rw [hoffset, hplace, Text.byteSize_append, Nat.add_assoc]

/-- What stands in the unread body stands in the source. -/
theorem Opened.stands {gap piece rest : Text}
    (h : Opened source opening s d before seen (gap ++ piece ++ rest) after) {kind : Token.Kind} :
    Token.StandsIn source ⟨kind, piece, s.offset + Text.byteSize gap⟩ := by
  refine ⟨before ++ d.opener ++ seen ++ gap, rest ++ d.closer ++ after, ?_, ?_⟩
  · simp [h.source, Delim.enclose]
  · simp [h.place, Nat.add_assoc]

theorem Opened.closer (h : Opened source opening s d before seen body after) :
    Token.StandsIn source ⟨.closer d, d.closer, s.offset + Text.byteSize body⟩ := by
  refine ⟨before ++ d.opener ++ seen ++ body, after, ?_, ?_⟩
  · simp [h.source, Delim.enclose]
  · simp [h.place, Nat.add_assoc]

/-- Behind the closer of a directive lies markup. -/
theorem Opened.left (h : Opened source opening s d before seen body after) (hmoves : Moves s next)
    (hregion : next.region = .markup after) (hoffset : next.offset = s.offset + Text.byteSize body + 2) :
    next.Placed source := by
  obtain ⟨inside, hopening, hinside⟩ := h.moves
  have hreached : ReflTransGen Moves (start source) next := ((h.reached.tail (.token hopening)).trans hinside).tail hmoves
  rw [Placed, hregion]
  refine ⟨hreached, before ++ d.enclose (seen ++ body), h.source, ?_⟩
  rw [hoffset, h.place, Text.byteSize_append, Delim.byteSize_enclose, Text.byteSize_append]
  omega

/-! ## One step -/

/-- In markup only an opener that nothing closes fails, and the scanner stays before it. -/
theorem stepMarkup_eq_failed {rest : Text} {e : ScanError} (h : s.stepMarkup rest = .failed e next) :
    next = s ∧ rest ≠ [] ∧ ∃ d, e = ⟨s.offset, .unclosedDirective d⟩ := by
  unfold stepMarkup at h
  split at h
  · cases h
  · split at h
    · split at h
      · cases h
      · cases h
        exact ⟨rfl, by simp, _, rfl⟩
    · cases h

theorem sound_stepMarkup {rest : Text} (hs : s.region = .markup rest) (h : s.Placed source) :
    (s.stepMarkup rest).Sound source := by
  have hplaced := h
  rw [Placed, hs] at h
  obtain ⟨hreached, before, hsource, hoffset⟩ := h
  have hstep : s.step = s.stepMarkup rest := by rw [step, hs]
  rcases s.stepMarkup_cases rest with ⟨-, hfinished⟩ | ⟨raw, more, hne, hplain, rfl⟩ | ⟨d, body, more, hcloses, rfl⟩ |
    ⟨e, hfailed⟩
  · rw [hfinished]
    trivial
  · have htoken := s.stepMarkup_of_plain hne hplain
    rw [htoken]
    refine ⟨⟨hreached.tail (.token (hstep.trans htoken)), before ++ raw, by simp [hsource], by simp [hoffset]⟩, ?_⟩
    exact ⟨before, more, by simp [hsource], hoffset.symm⟩
  · have htoken := s.stepMarkup_enclose more hcloses
    rw [htoken]
    have hopening := hstep.trans htoken
    rw [advance, hoffset] at hopening
    refine ⟨⟨s, before, [], hreached, ⟨_, hopening, ?_⟩, ?_, hcloses, ?_⟩, ?_⟩
    · rw [hoffset]
    · simp [hsource]
    · simp [hoffset]
    · exact ⟨before, body ++ d.closer ++ more, by simp [hsource, Delim.enclose], hoffset.symm⟩
  · obtain ⟨-, hne, d, rfl⟩ := stepMarkup_eq_failed hfailed
    obtain ⟨c, tail, rfl⟩ := List.exists_cons_of_ne_nil hne
    rw [hfailed]
    refine ⟨hplaced, hstep.trans hfailed, ?_, by simp⟩
    rw [hsource, Text.byteSize_append, ← hoffset]
    exact Nat.lt_add_of_pos_right Text.byteSize_pos

theorem sound_stepComment (hs : s.region = .directive .comment body after) (h : s.Placed source) :
    (s.stepComment body after).Sound source := by
  rw [Placed, hs] at h
  obtain ⟨opening, before, seen, h⟩ := h
  have hstep : s.step = s.stepComment body after := by rw [step, hs]
  cases body with
  | nil => exact ⟨h.left (.token hstep) rfl rfl, h.closer⟩
  | cons c tail =>
    have hopened : Opened source opening s .comment before seen ((c :: tail) ++ []) after := by simpa using h
    refine ⟨⟨opening, before, _, hopened.advance (.token hstep) rfl⟩, ?_⟩
    exact (show Opened source opening s .comment before seen ([] ++ (c :: tail) ++ []) after by simpa using h).stands

/-- Where no white space is to be skipped, a step that fails changes nothing. -/
theorem step_of_fault {c : Char} {tail : Text} {fault : Lexeme.Fault} (hd : d ≠ .comment)
    (hs : s.region = .directive d (c :: tail) after) (hc : isWhiteSpace c = false)
    (hread : Lexeme.read s.afterDot (c :: tail) = .error fault) :
    s.step = .failed ⟨s.offset + fault.distance, fault.problem⟩ s := by
  obtain ⟨region, offset, afterDot⟩ := s
  subst hs
  rw [step_eq_stepDirective hd rfl, stepDirective]
  simp only [List.takeWhile_cons, List.dropWhile_cons, hc, Bool.false_eq_true, if_false, hread]
  rfl

theorem sound_stepDirective (hd : d ≠ .comment) (hs : s.region = .directive d body after) (h : s.Placed source) :
    (s.stepDirective d body after).Sound source := by
  rw [Placed, hs] at h
  obtain ⟨opening, before, seen, h⟩ := h
  have hstep := step_eq_stepDirective hd hs
  have hbody := List.takeWhile_append_dropWhile (p := isWhiteSpace) (l := body)
  generalize hgap : body.takeWhile isWhiteSpace = gap at hbody
  generalize hahead : body.dropWhile isWhiteSpace = ahead at hbody
  subst hbody
  unfold stepDirective at hstep ⊢
  simp only [hgap, hahead] at hstep ⊢
  cases ahead with
  | nil =>
    refine ⟨h.left (.token hstep) rfl (by simp), ?_⟩
    simpa using h.closer
  | cons c tail =>
    cases hread : Lexeme.read s.afterDot (c :: tail) with
    | ok l =>
      have htext := Lexeme.text_append_rest hread
      simp only [hread] at hstep ⊢
      rw [← htext, ← List.append_assoc] at h
      refine ⟨⟨opening, before, _, h.advance (.token hstep) ?_⟩, h.stands⟩
      simp [Nat.add_assoc]
    | error fault =>
      have hblank : isWhiteSpace c = false := by
        have hhead := List.head?_dropWhile_not isWhiteSpace (gap ++ c :: tail)
        simpa [hahead] using hhead
      simp only [hread] at hstep ⊢
      obtain ⟨hdistance, hproblem⟩ := Lexeme.liesIn_of_read hread
      refine ⟨⟨opening, before, _, h.advance (.failed hstep) rfl⟩, ?_, ?_, hproblem⟩
      · exact step_of_fault hd rfl hblank hread
      · have hsize := congrArg Text.byteSize h.source
        simp only [Text.byteSize_append, Delim.byteSize_enclose] at hsize
        show s.offset + Text.byteSize gap + fault.distance < Text.byteSize source
        rw [hsize, h.place]
        omega

/-- **A step from a place of a source leads to a place of it**, whether it succeeds or fails. -/
theorem Placed.sound (h : s.Placed source) : s.step.Sound source := by
  match hs : s.region with
  | .markup rest =>
    rw [step, hs]
    exact sound_stepMarkup hs h
  | .directive .comment body after =>
    rw [step, hs]
    exact sound_stepComment hs h
  | .directive .var body after =>
    rw [step_eq_stepDirective (by simp) hs]
    exact sound_stepDirective (by simp) hs h
  | .directive .tag body after =>
    rw [step_eq_stepDirective (by simp) hs]
    exact sound_stepDirective (by simp) hs h

theorem placed_start (source : Text) : (start source).Placed source :=
  ⟨.refl, [], rfl, rfl⟩

/-! ## What a step takes out of the source -/

/-- The byte where the directive that a scanner is in closes. -/
def closer? (s : Scanner) : Option (Delim × Nat) :=
  match s.region with
  | .markup _ => none
  | .directive d body _ => some (d, s.offset + Text.byteSize body)

/-- The texts that are cut out of the source for the next token, and the bytes where they start. -/
inductive Takes (s : Scanner) : Nat → Text → Prop
  /-- All that is left. -/
  | rest {rest : Text} (hs : s.region = .markup rest) : Takes s s.offset rest
  | opener {rest inside : Text} {d : Delim} (hs : s.region = .markup rest)
    (hopening : Delim.opening? rest = some (d, inside)) : Takes s s.offset d.opener
  /-- What stands behind an opener, where the closer is looked for. -/
  | inside {rest inside : Text} {d : Delim} (hs : s.region = .markup rest)
    (hopening : Delim.opening? rest = some (d, inside)) : Takes s (s.offset + 2) inside
  /-- What stands before the closer. -/
  | body {d : Delim} {body after : Text} (hs : s.region = .directive d body after) : Takes s s.offset body
  /-- The same without the white space at its front. -/
  | ahead {d : Delim} {body after : Text} (hs : s.region = .directive d body after) :
    Takes s (s.offset + Text.byteSize (body.takeWhile isWhiteSpace)) (body.dropWhile isWhiteSpace)
  /-- What stands behind the digits of a number or of a part of one. -/
  | behindDigits {d : Delim} {body after digits rest : Text} (hs : s.region = .directive d body after)
    (hdigits : ∀ c ∈ digits, c.isDigit || c == '.') (hsplit : body.dropWhile isWhiteSpace = digits ++ rest) :
    Takes s (s.offset + Text.byteSize (body.takeWhile isWhiteSpace) + Text.byteSize digits) rest
  | token {t : Token} {next : Scanner} (hstep : s.step = .token t next) : Takes s t.offset t.text

/-- Whatever a scanner takes out of its source stands there. -/
theorem Placed.hasAt {start : Nat} {piece : Text} (h : s.Placed source) (htakes : s.Takes start piece) :
    source.HasAt start piece := by
  have hmarkup : ∀ {rest}, s.region = .markup rest → source.HasAt s.offset rest := by
    intro rest hs
    rw [Placed, hs] at h
    obtain ⟨-, before, hsource, hoffset⟩ := h
    exact ⟨before, [], by simp [hsource], hoffset.symm⟩
  have hbody : ∀ {d body after}, s.region = .directive d body after → source.HasAt s.offset body := by
    intro d body after hs
    rw [Placed, hs] at h
    obtain ⟨opening, before, seen, h⟩ := h
    exact ⟨before ++ d.opener ++ seen, d.closer ++ after, by simp [h.source, Delim.enclose],
      by simp [h.place, Nat.add_assoc]⟩
  have hahead : ∀ {d body after}, s.region = .directive d body after →
      source.HasAt (s.offset + Text.byteSize (body.takeWhile isWhiteSpace)) (body.dropWhile isWhiteSpace) := by
    intro d body after hs
    refine Text.HasAt.right ?_
    rw [List.takeWhile_append_dropWhile]
    exact hbody hs
  cases htakes with
  | rest hs => exact hmarkup hs
  | opener hs hopening =>
    have hrest := hmarkup hs
    rw [← Delim.opener_append_of_opening? hopening] at hrest
    exact hrest.left
  | @inside _ _ d hs hopening =>
    have hrest := hmarkup hs
    rw [← Delim.opener_append_of_opening? hopening] at hrest
    rw [← d.byteSize_opener]
    exact hrest.right
  | body hs => exact hbody hs
  | ahead hs => exact hahead hs
  | behindDigits hs hdigits hsplit => exact Text.HasAt.right (hsplit ▸ hahead hs)
  | token hstep =>
    have hsound := h.sound
    rw [hstep] at hsound
    exact hsound.2

end

end Scanner

/-! ## Sessions -/

/-- A stream, and the copies of it that were set aside. -/
structure Session where
  stream : Token.Stream
  copies : List Token.Stream
deriving DecidableEq

namespace Session

/-- The stream of a source, before it is asked for anything. -/
def ofSource (source : Text) : Session :=
  ⟨.ofSource source, []⟩

/-- What can be done with a stream. -/
inductive Calls : Session → Session → Prop
  | next {s : Session} : Calls s ⟨s.stream.next.2, s.copies⟩
  | nextToken {s : Session} : Calls s ⟨s.stream.nextToken.2, s.copies⟩
  | copy {s : Session} : Calls s ⟨s.stream, s.stream :: s.copies⟩
  | restore {s : Session} {copy : Token.Stream} (hcopy : copy ∈ s.copies) : Calls s ⟨copy, s.copies⟩

/-- The scanners of a session, those of the copies included, have a property. -/
def All (P : Scanner → Prop) (s : Session) : Prop :=
  P s.stream.scanner ∧ ∀ copy ∈ s.copies, P copy.scanner

section
variable {P : Scanner → Prop} {s s' : Session}

/-- What every step of a scanner keeps, every call keeps. -/
theorem All.calls (hkeeps : ∀ a b, Scanner.Moves a b → P a → P b) (h : s.All P) (hcalls : Calls s s') : s'.All P := by
  obtain ⟨hstream, hcopies⟩ := h
  cases hcalls with
  | next =>
    refine ⟨?_, hcopies⟩
    simp only [Token.Stream.next]
    split
    · exact hstream
    · split
      · exact hstream
      · rename_i hstep
        exact hkeeps _ _ (.failed hstep) hstream
      · rename_i hstep
        exact hkeeps _ _ (.token hstep) hstream
  | nextToken =>
    refine ⟨?_, hcopies⟩
    simp only [Token.Stream.nextToken]
    split
    · exact hstream
    · rename_i hstep
      exact hkeeps _ _ (.failed hstep) hstream
    · rename_i hstep
      exact hkeeps _ _ (.token hstep) hstream
  | copy => exact ⟨hstream, List.forall_mem_cons.2 ⟨hstream, hcopies⟩⟩
  | restore hcopy => exact ⟨hcopies _ hcopy, hcopies⟩

/-- What every step of a scanner keeps holds throughout a session. -/
theorem All.run (hkeeps : ∀ a b, Scanner.Moves a b → P a → P b) (h : s.All P) (hrun : ReflTransGen Calls s s') :
    s'.All P := by
  induction hrun with
  | refl => exact h
  | tail _ hcalls ih => exact ih.calls hkeeps hcalls

end

end Session

namespace Scanner

section
variable {source : Text} {s next : Scanner}

theorem Placed.moves (hmoves : Moves s next) (h : s.Placed source) : next.Placed source := by
  have hsound := h.sound
  cases hmoves with
  | token hstep =>
    rw [hstep] at hsound
    exact hsound.1
  | failed hstep =>
    rw [hstep] at hsound
    exact hsound.1

theorem Placed.boundary (h : s.Placed source) : source.Boundary s.offset ∧ s.offset ≤ Text.byteSize source := by
  have hplace : ∀ {piece}, source.HasAt s.offset piece → source.Boundary s.offset ∧ s.offset ≤ Text.byteSize source := by
    rintro piece ⟨before, after, hsource, hsize⟩
    refine ⟨⟨before, piece ++ after, by simp [hsource], hsize⟩, ?_⟩
    rw [hsource, ← hsize]
    simp
  match hs : s.region with
  | .markup rest => exact hplace (h.hasAt (.rest hs))
  | .directive d body after => exact hplace (h.hasAt (.body hs))

end

end Scanner

/-- A directive that opens at byte `start` closes at byte `place`: its closer stands there, and nowhere
before from the end of the opener on. -/
def Delim.ClosesAt (d : Delim) (source : Text) (start place : Nat) : Prop :=
  ∃ before inside after, source = before ++ d.opener ++ inside ++ d.closer ++ after ∧
    Text.byteSize before = start ∧ start + 2 + Text.byteSize inside = place ∧
    ∀ x y, inside ++ d.closer ++ after = x ++ d.closer ++ y → inside.length ≤ x.length

/-- A scanner inside a directive has come from the opener, and stands before the closer that was found
when the opener was read. -/
theorem Scanner.Placed.closer {source : Text} {s : Scanner} (h : s.Placed source) {d : Delim} {place : Nat}
    (hcloser : s.closer? = some (d, place)) : ∃ opening next begin,
      ReflTransGen Scanner.Moves (.start source) opening ∧
      opening.step = .token ⟨.opener d, d.opener, begin⟩ next ∧ ReflTransGen Scanner.Moves next s ∧
      begin + 2 ≤ s.offset ∧ s.offset ≤ place ∧ d.ClosesAt source begin place := by
  match hs : s.region with
  | .markup rest => simp [Scanner.closer?, hs] at hcloser
  | .directive d' body after =>
    simp only [Scanner.closer?, hs, Option.some.injEq, Prod.mk.injEq] at hcloser
    obtain ⟨rfl, rfl⟩ := hcloser
    rw [Scanner.Placed, hs] at h
    obtain ⟨opening, before, seen, h⟩ := h
    obtain ⟨next, hopening, hmoves⟩ := h.moves
    refine ⟨opening, next, Text.byteSize before, h.reached, hopening, hmoves, ?_, Nat.le_add_right _ _, ?_⟩
    · rw [h.place]
      omega
    · refine ⟨before, seen ++ body, after, by simp [h.source, Delim.enclose], rfl, ?_, fun x y => h.closes.first⟩
      rw [h.place, Text.byteSize_append]
      omega

/-! ## Errors -/

namespace Session

/-- The scanner of a session stands at a place of the source. -/
theorem placed {source : Text} {s : Session} (h : ReflTransGen Calls (.ofSource source) s) :
    s.stream.scanner.Placed source := by
  have hstart : (ofSource source).All (Scanner.Placed source) := ⟨Scanner.placed_start source, by simp [ofSource]⟩
  exact (hstart.run (fun _ _ => Scanner.Placed.moves) h).1

/-- A scanner that fails where it stands fails in the same way throughout a session. -/
theorem stays_failed {scanner : Scanner} {e : ScanError} (hstep : scanner.step = .failed e scanner) {s s' : Session}
    (h : s.All (· = scanner)) (hrun : ReflTransGen Calls s s') : s'.stream.nextToken = (some (.error e), s'.stream) := by
  have hkeeps : ∀ a b, Scanner.Moves a b → a = scanner → b = scanner := by
    rintro a b hmoves rfl
    cases hmoves with
    | token htoken => cases hstep.symm.trans htoken
    | failed hfailed =>
      cases hstep.symm.trans hfailed
      rfl
  have hlater := (h.run hkeeps hrun).1
  refine Token.Stream.nextToken_eq_error.2 ⟨scanner, by rw [hlater, hstep], ?_⟩
  rw [← hlater]

end Session

/-- **A stream keeps to its source and to its errors.** However it is used, its scanner stands between two
characters, before the first closer behind the opener of the directive it is in; what it takes out of the
source is there; and an error, which lies inside the source, is met again whatever is called after it. -/
theorem Session.scans_soundly {source : Text} {session : Session}
    (h : ReflTransGen Session.Calls (.ofSource source) session) :
    (source.Boundary session.stream.scanner.offset ∧ session.stream.scanner.offset ≤ Text.byteSize source) ∧
    (∀ d place, session.stream.scanner.closer? = some (d, place) → ∃ opening next begin,
      ReflTransGen Scanner.Moves (.start source) opening ∧
      opening.step = .token ⟨.opener d, d.opener, begin⟩ next ∧
      ReflTransGen Scanner.Moves next session.stream.scanner ∧
      begin + 2 ≤ session.stream.scanner.offset ∧ session.stream.scanner.offset ≤ place ∧
      d.ClosesAt source begin place) ∧
    (∀ start piece, session.stream.scanner.Takes start piece → source.HasAt start piece) ∧
    ∀ e stream, session.stream.nextToken = (some (.error e), stream) →
      e.problem ≠ .endOfDirective ∧ e.offset < Text.byteSize source ∧
      ∀ later, ReflTransGen Session.Calls ⟨stream, []⟩ later →
        later.stream.nextToken = (some (.error e), later.stream) := by
  have hplaced := Session.placed h
  refine ⟨hplaced.boundary, fun d place => hplaced.closer, fun start piece => hplaced.hasAt, fun e stream herror => ?_⟩
  obtain ⟨next, hfailed, rfl⟩ := Token.Stream.nextToken_eq_error.1 herror
  have hsound := hplaced.sound
  rw [hfailed] at hsound
  obtain ⟨-, hagain, hoffset, hproblem⟩ := hsound
  exact ⟨hproblem, hoffset, fun later hrun => Session.stays_failed hagain ⟨rfl, by simp⟩ hrun⟩

/-- A character of two bytes, then a directive with a stray character behind a blank: a copy is set aside
before the error, and nothing that is called after the error gets past it. -/
theorem Session.scans_soundly_after_error : ∃ (source : Text) (session : Session) (e : ScanError) (stream : Token.Stream),
    (source = 'é' :: Delim.var.enclose [' ', '?'] ∧ ReflTransGen Session.Calls (.ofSource source) session ∧
      session = ⟨⟨⟨.directive .var ['?'] [], 5, false⟩, true⟩, [⟨⟨.markup (Delim.var.enclose [' ', '?']), 2, false⟩, false⟩]⟩ ∧
      session.stream.nextToken = (some (.error e), stream) ∧ e = ⟨5, .strayCharacter '?'⟩) ∧
    session.stream.scanner.offset ≤ Text.byteSize source ∧
    (∃ begin, begin + 2 ≤ 5 ∧ Delim.var.ClosesAt source begin 6) ∧
    source.HasAt 5 ['?'] ∧ e.offset < Text.byteSize source ∧
    ∀ later, ReflTransGen Session.Calls ⟨stream, []⟩ later →
      later.stream.nextToken = (some (.error e), later.stream) := by
  obtain ⟨session, hsession, hrun⟩ : ∃ session, session = Session.mk ⟨⟨.directive .var ['?'] [], 5, false⟩, true⟩
      [⟨⟨.markup (Delim.var.enclose [' ', '?']), 2, false⟩, false⟩] ∧
      ReflTransGen Session.Calls (.ofSource ('é' :: Delim.var.enclose [' ', '?'])) session := by
    refine ⟨_, ?_, .tail (.tail (.tail (.tail .refl .nextToken) .copy) .nextToken) .next⟩
    decide +kernel
  obtain ⟨⟨-, hle⟩, hcloser, htakes, herror⟩ := Session.scans_soundly hrun
  have hfails : session.stream.nextToken = (some (.error ⟨5, .strayCharacter '?'⟩), session.stream) := by
    subst hsession
    exact Token.Stream.nextToken_eq_error.2 ⟨_, by decide +kernel, rfl⟩
  obtain ⟨-, hoffset, hlater⟩ := herror _ _ hfails
  refine ⟨_, session, _, _, ⟨rfl, hrun, hsession, hfails, rfl⟩, hle, ?_, ?_, hoffset, hlater⟩
  · obtain ⟨-, -, begin, -, -, -, hbegin, -, hcloses⟩ := hcloser .var 6 (by rw [hsession]; decide)
    rw [hsession] at hbegin
    exact ⟨begin, hbegin, hcloses⟩
  · subst hsession
    exact htakes 5 ['?'] (.body rfl)

end MailDialect
