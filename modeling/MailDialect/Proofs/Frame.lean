import MailDialect.Proofs.Bracketing
import MailDialect.Proofs.Stability

/-!
# What stays around directives

Bringing a text over writes its variables and tags anew, each in its place, and leaves everything else
as it was: plain texts and comments, in their order. What is written in the place of a directive is one
whole directive between the same delimiters, and scanning the new text finds these directives and no
others, whatever stands around them. Main statement: `migrate_frame`.
-/

namespace MailDialect

open Grammar

/-! ## The directives of a template -/

mutual

def Node.heads : Node → List Head
  | .text _ => []
  | .comment _ => []
  | .var v => [.var v.path v.default v.filters v.marked]
  | .ifBlock c _ body more => .ifTag c :: (Template.heads body ++ more.heads)
  | .forBlock name source _ body => .forTag name source :: (Template.heads body ++ [.endforTag])
  | .unsupported u => [.unsupported u.name u.closing]

def Alternative.heads : Alternative → List Head
  | .endif => [.endifTag]
  | .otherwise body => .elseTag :: (Template.heads body ++ [.endifTag])
  | .elseif c _ body more => .elseifTag c :: (Template.heads body ++ more.heads)

/-- What the directives of a template say, one after the other, the ends of blocks included. -/
def Template.heads : Template → List Head
  | [] => []
  | n :: t => n.heads ++ Template.heads t

end

/-- A directive as it is written, from where it was read. -/
def Grammar.Head.print (ns : Text) (span : Span) : Head → Text
  | .var p default fs marked => Variable.print ns ⟨p, default, fs, marked, span⟩
  | .ifTag c => c.printTag ns ['i', 'f'] span
  | .elseifTag c => c.printTag ns ['e', 'l', 'i', 'f'] span
  | .elseTag => printTag ['e', 'l', 's', 'e']
  | .endifTag => printTag ['e', 'n', 'd', 'i', 'f']
  | .forTag name source => source.printTag ns name span
  | .endforTag => printTag ['e', 'n', 'd', 'f', 'o', 'r']
  | .unsupported _ _ => span.raw

/-- Whether a directive is passed on as it was: an unsupported tag or the end of one, a directive with
an unsupported filter, a loop over numbers, and a variable that is no parameter and has neither marker
nor default. -/
def Grammar.Head.isPassedOn : Head → Bool
  | .var p default fs marked => fs.any Filter.isUnsupported || (p.scope != .param && !marked && default.isNone)
  | .ifTag c => c.filters.any Filter.isUnsupported
  | .elseifTag c => c.filters.any Filter.isUnsupported
  | .elseTag => false
  | .endifTag => false
  | .forTag _ (.range _) => true
  | .forTag _ (.collection _ fs) => fs.any Filter.isUnsupported
  | .endforTag => false
  | .unsupported _ _ => true

section
variable {ns : Text} {span : Span} {head : Head}

theorem Grammar.Head.print_of_isPassedOn (h : head.isPassedOn) : head.print ns span = span.raw := by
  cases head with
  | var p default fs marked =>
    have hkept : (fs.any Filter.isUnsupported || !Variable.isForeign ⟨p, default, fs, marked, span⟩) = true := by
      cases hscope : p.scope <;> cases marked <;> cases default <;>
        simp_all [Head.isPassedOn, Variable.isForeign]
    exact if_pos hkept
  | ifTag c => exact if_pos h
  | elseifTag c => exact if_pos h
  | forTag name source =>
    cases source with
    | range bounds => rfl
    | collection p fs => exact if_pos h
  | unsupported name closing => rfl
  | elseTag => cases h
  | endifTag => cases h
  | endforTag => cases h

/-- A directive is written as one whole directive, even if the namespace is reserved. -/
theorem enclosed_print {d : Delim} (hns : ns.isWord) (h : Written d head span.raw) :
    Enclosed d (head.print ns span) fun _ => True := by
  have hwritten := h
  obtain ⟨body, start, inner, -, -, -, hhead⟩ := h
  cases hhead with
  | @var _ _ _ p marked default fs =>
    exact (rewritten_var (v := ⟨p, default, fs, marked, span⟩) hns hwritten).whole
  | ifTag => exact (rewritten_if hns hwritten).whole
  | elseif => exact (rewritten_elseif hns hwritten).whole
  | elseIf => exact (rewritten_elseif hns hwritten).whole
  | forTag => exact (rewritten_for hns hwritten).whole
  | elseTag => exact written_else.whole
  | endifTag => exact written_endif.whole
  | endforTag => exact written_endfor.whole
  | opening => exact hwritten.whole
  | closing => exact hwritten.whole

end

/-! ## What stands around directives -/

/-- The texts before, between and behind directives of a source, from byte `start` on. -/
def gaps (source : Text) : Nat → List Directive → List Text
  | start, [] => [Text.slice source start (Text.byteSize source)]
  | start, dir :: dirs => Text.slice source start dir.start :: gaps source dir.stop dirs

/-- Two lists of texts put together by turns. -/
def weave : List Text → List Text → Text
  | [], texts => texts.flatten
  | gap :: gaps, [] => (gap :: gaps).flatten
  | gap :: gaps, text :: texts => gap ++ text ++ weave gaps texts

/-- A directive of a source, what it says, and what is written in its place. -/
structure Rewriting where
  directive : Directive
  head : Head
  text : Text

/-- What is written in the place of a directive is one whole directive between the same delimiters, and
the directive itself if it is passed on. -/
structure Rewriting.Sound (source : Text) (r : Rewriting) : Prop where
  meaning : IsHead r.directive.delim r.directive.inner r.head
  whole : ∃ dir : Directive, Token.scan r.text = .ok dir.tokens ∧ Token.blocks dir.tokens = [.directive dir] ∧
    dir.delim = r.directive.delim
  passed : r.head.isPassedOn → r.text = r.directive.text source

/-- The source with tokens `ts` and the output with tokens `us` differ in their directives alone. -/
structure Framed (source output : Text) (ts us : List Token) (rs : List Rewriting) : Prop where
  directives : rs.map Rewriting.directive = Token.directives ts
  source_eq : weave (gaps source 0 (Token.directives ts)) ((Token.directives ts).map (Directive.text source)) = source
  output_eq : weave (gaps source 0 (Token.directives ts)) (rs.map Rewriting.text) = output
  found : (Token.directives us).map (Directive.text output) = rs.map Rewriting.text
  around : gaps output 0 (Token.directives us) = gaps source 0 (Token.directives ts)
  each : ∀ r ∈ rs, r.Sound source

/-! ## Pieces around directives -/

/-- A variable or a tag. -/
def Piece.isMarkup : Piece → Bool
  | .text _ => false
  | .directive d _ => d != .comment

/-- The texts before, between and behind variables and tags, with `gap` before the first piece. -/
def pieceGaps (gap : Text) : List Piece → List Text
  | [] => [gap]
  | p :: ps => if p.isMarkup then gap :: pieceGaps [] ps else pieceGaps (gap ++ p.raw) ps

/-- The variables and tags among pieces. -/
def markups (ps : List Piece) : List Text := (ps.filter Piece.isMarkup).map Piece.raw

theorem Piece.isMarkup_directive {d : Delim} {b : Text} : (directive d b).isMarkup ↔ d ≠ .comment := by
  simp [isMarkup]

theorem markups_cons {p : Piece} {ps : List Piece} :
    markups (p :: ps) = if p.isMarkup then p.raw :: markups ps else markups ps := by
  by_cases hp : p.isMarkup <;> simp [markups, hp]

theorem weave_pieceGaps (gap : Text) (ps : List Piece) : weave (pieceGaps gap ps) (markups ps) = gap ++ raws ps := by
  induction ps generalizing gap with
  | nil => simp [pieceGaps, markups, weave]
  | cons p ps ih =>
    by_cases hp : p.isMarkup
    · rw [pieceGaps, if_pos hp, markups_cons, if_pos hp, weave, ih]
      simp
    · rw [pieceGaps, if_neg hp, markups_cons, if_neg hp, ih]
      simp

/-- Directives and the texts around them, as tokens and as pieces show them. -/
theorem Lexed.gaps {source : Text} {start offset : Nat} {ps : List Piece} {ts : List Token} (h : Lexed offset ps ts)
    (before gap : Text) (hsource : source = before ++ gap ++ raws ps) (hstart : Text.byteSize before = start)
    (hoffset : start + Text.byteSize gap = offset) :
    MailDialect.gaps source start (Token.directives ts) = pieceGaps gap ps ∧
      (Token.directives ts).map (Directive.text source) = markups ps := by
  -- the gap grows with every text and comment, and starts anew behind a variable or a tag
  induction h generalizing before gap start with
  | @nil offset =>
    have hstop : start + Text.byteSize gap = Text.byteSize source := by simp [hsource, hstart]
    rw [Token.directives_nil, MailDialect.gaps, slice_of_eq hsource hstart hstop]
    exact ⟨rfl, rfl⟩
  | @text offset raw ps ts hmore ih =>
    rw [Token.directives_text_cons]
    exact ih before (gap ++ raw) (by simp [hsource, Piece.raw]) hstart (by simp [← hoffset, Nat.add_assoc])
  | @directive offset d body ps inner ts hinside hmore ih =>
    by_cases hd : d = .comment
    · subst hd
      rw [Token.directives_comment_cons rfl rfl hinside.unclosed]
      refine ih before (gap ++ Delim.comment.enclose body) (by simp [hsource, Piece.raw]) hstart ?_
      simp [← hoffset, Delim.byteSize_enclose, Nat.add_assoc]
    · have hmarkup := Piece.isMarkup_directive (b := body).2 hd
      have hfront : source = before ++ gap ++ raws (.directive d body :: ps) := hsource
      have hhere : source = before ++ gap ++ d.enclose body ++ raws ps := by simp [hsource, Piece.raw]
      have hplace : Text.byteSize (before ++ gap) = offset := by simp [hstart, hoffset]
      have hbehind : Text.byteSize (before ++ gap ++ d.enclose body) = offset + 2 + Text.byteSize body + 2 := by
        rw [Text.byteSize_append, hplace, Delim.byteSize_enclose]
        omega
      obtain ⟨hgaps, htexts⟩ := ih (before ++ gap ++ d.enclose body) [] (by simp [hhere]) hbehind (by simp)
      have hstop : Token.stop ⟨.closer d, d.closer, offset + 2 + Text.byteSize body⟩ =
          offset + 2 + Text.byteSize body + 2 := by simp [Token.stop]
      rw [Token.directives_markup_cons hd rfl rfl hinside.unclosed, MailDialect.gaps, Directive.stop, hstop, hgaps,
        List.map_cons, htexts, Directive.text, Directive.stop, hstop, Directive.start,
        slice_of_eq hfront hstart hoffset, slice_of_eq hhere hplace (by rw [Delim.byteSize_enclose]; omega)]
      simp [pieceGaps, markups_cons, hmarkup, Piece.raw]

theorem Lexed.gaps_all {ps : List Piece} {ts : List Token} (h : Lexed 0 ps ts) :
    MailDialect.gaps (raws ps) 0 (Token.directives ts) = pieceGaps [] ps ∧
      (Token.directives ts).map (Directive.text (raws ps)) = markups ps :=
  h.gaps [] [] rfl rfl rfl

/-! ## Pieces written anew, one by one -/

/-- Pieces turn into pieces: a text or a comment stays, and a variable or a tag is written as what it says. -/
inductive Respells (ns : Text) : List Piece → List Head → List Piece → Prop
  | nil : Respells ns [] [] []
  | quiet {p : Piece} {ps qs : List Piece} {heads : List Head} (hp : p.isMarkup = false)
    (hmore : Respells ns ps heads qs) : Respells ns (p :: ps) heads (p :: qs)
  | markup {d : Delim} {body body' : Text} {head : Head} {start start' : Nat} {inner inner' : List Token}
    {ps qs : List Piece} {heads : List Head} (hd : d ≠ .comment) (hlexes : Lexes false start body inner)
    (hhead : IsHead d inner head) (hcloses : d.Closes body') (hlexes' : Lexes false start' body' inner')
    (hprint : head.print ns ⟨d.enclose body, 0⟩ = d.enclose body') (hmore : Respells ns ps heads qs) :
    Respells ns (.directive d body :: ps) (head :: heads) (.directive d body' :: qs)

section
variable {ns : Text} {ps qs ps' qs' : List Piece} {heads heads' : List Head}

theorem Respells.append (h : Respells ns ps heads qs) (h' : Respells ns ps' heads' qs') :
    Respells ns (ps ++ ps') (heads ++ heads') (qs ++ qs') := by
  induction h with
  | nil => exact h'
  | quiet hp _ ih => exact .quiet hp ih
  | markup hd hlexes hhead hcloses hlexes' hprint _ ih => exact .markup hd hlexes hhead hcloses hlexes' hprint ih

theorem Piece.Kin.refl {p : Piece} (h : p.Whole) : p.Kin p := by
  cases p with
  | text raw => rfl
  | directive d body => exact h

theorem Respells.kin (h : Respells ns ps heads qs) (hwhole : ∀ p ∈ ps, p.Whole) : List.Forall₂ Piece.Kin ps qs := by
  induction h with
  | nil => exact .nil
  | quiet _ _ ih =>
    obtain ⟨hp, hps⟩ := List.forall_mem_cons.1 hwhole
    exact .cons (.refl hp) (ih hps)
  | markup _ _ _ hcloses _ _ _ ih =>
    obtain ⟨-, hps⟩ := List.forall_mem_cons.1 hwhole
    exact .cons hcloses (ih hps)

/-- What stands around variables and tags stays. -/
theorem Respells.pieceGaps (h : Respells ns ps heads qs) (gap : Text) :
    MailDialect.pieceGaps gap qs = MailDialect.pieceGaps gap ps := by
  induction h generalizing gap with
  | nil => rfl
  | quiet hp _ ih => simp only [MailDialect.pieceGaps, hp, ih]
  | markup hd _ _ _ _ _ _ ih =>
    simp only [MailDialect.pieceGaps, Piece.isMarkup_directive.2 hd, if_true, ih]

theorem inside_iff_lexes {d : Delim} {offset : Nat} {body : Text} {ts : List Token} (hd : d ≠ .comment) :
    Inside d false offset body ts ↔ Lexes false offset body ts := by
  cases d with
  | comment => exact (hd rfl).elim
  | var | tag => exact Iff.rfl

/-- The new pieces have tokens again. -/
theorem Respells.lexed (h : Respells ns ps heads qs) (offset : Nat) : ∃ us, Lexed offset qs us := by
  induction h generalizing offset with
  | nil => exact ⟨[], .nil⟩
  | @quiet p _ _ _ hp _ ih =>
    cases p with
    | text raw =>
      obtain ⟨us, hus⟩ := ih (offset + Text.byteSize raw)
      exact ⟨_, .text hus⟩
    | directive d body =>
      have hd : d = .comment := by simpa [Piece.isMarkup] using hp
      subst hd
      obtain ⟨us, hus⟩ := ih (offset + 2 + Text.byteSize body + 2)
      exact ⟨_, .directive rfl hus⟩
  | @markup d _ body' _ _ _ _ _ _ _ _ hd _ _ _ hlexes' _ _ ih =>
    obtain ⟨us, hus⟩ := ih (offset + 2 + Text.byteSize body' + 2)
    exact ⟨_, .directive ((inside_iff_lexes hd).2 (hlexes'.move (offset + 2))) hus⟩

end

/-! ## Templates written anew -/

/-- What the directives of a part of a template say. -/
def Grammar.Phrase.heads : Phrase → List Head
  | .node n => n.heads
  | .nodes t => Template.heads t
  | .alternative a => a.heads

/-- The pieces `ps` with the directives `heads` turn into pieces that are written `text`. -/
def Respelled (ns : Text) (ps : List Piece) (heads : List Head) (text : Text) : Prop :=
  ∃ qs, Respells ns ps heads qs ∧ raws qs = text

section
variable {ns : Text} {ps ps' : List Piece}

theorem Respelled.append {heads heads' : List Head} {x y : Text} (h : Respelled ns ps heads x)
    (h' : Respelled ns ps' heads' y) : Respelled ns (ps ++ ps') (heads ++ heads') (x ++ y) := by
  obtain ⟨qs, hqs, rfl⟩ := h
  obtain ⟨qs', hqs', rfl⟩ := h'
  exact ⟨qs ++ qs', hqs.append hqs', raws_append qs qs'⟩

theorem respelled_quiet {p : Piece} (hp : p.isMarkup = false) : Respelled ns [p] [] p.raw :=
  ⟨[p], .quiet hp .nil, by simp⟩

theorem respelled_directive {d : Delim} {head : Head} {span : Span} (hns : ns.isWord) (hd : d ≠ .comment)
    (h : pieces.directive d ps head span) (hwhole : ∀ p ∈ ps, p.Whole) :
    Respelled ns ps [head] (head.print ns span) := by
  obtain ⟨body', start', inner', hprint, hcloses, hlexes', -⟩ := enclosed_print hns (written_of_pieces h hwhole)
  obtain ⟨body, start, inner, rfl, hraw, hlexes, hhead⟩ := h
  have hplace : head.print ns ⟨d.enclose body, 0⟩ = head.print ns span := by
    rw [← hraw]
    cases head <;> rfl
  refine ⟨[.directive d body'], .markup hd hlexes hhead hcloses hlexes' (hplace.trans hprint) .nil, ?_⟩
  simp [Piece.raw, hprint]

/-- **The pieces of a template turn one by one into the pieces it is written as.** -/
theorem respelled_blocks {phrase : Phrase} (hns : ns.isWord) (h : Blocks pieces ps phrase)
    (hwhole : ∀ p ∈ ps, p.Whole) : Respelled ns ps phrase.heads (phrase.print ns) := by
  induction h with
  | nil => exact ⟨[], .nil, rfl⟩
  | cons _ _ ihf ihm =>
    obtain ⟨hfirst, hmore⟩ := List.forall_mem_append.1 hwhole
    exact (ihf hfirst).append (ihm hmore)
  | text h => cases h; exact respelled_quiet rfl
  | comment h => obtain ⟨body, rfl, rfl⟩ := h; exact respelled_quiet rfl
  | var h => exact respelled_directive hns (by simp) h hwhole
  | unsupported h => exact respelled_directive hns (by simp) h hwhole
  | endif h => exact respelled_directive hns (by simp) h hwhole
  | ifBlock htag _ _ ihb ihm | elseif htag _ _ ihb ihm =>
    obtain ⟨hfirst, hrest⟩ := List.forall_mem_append.1 hwhole
    obtain ⟨hbody, hmore⟩ := List.forall_mem_append.1 hrest
    have hall := (respelled_directive hns (by simp) htag hfirst).append ((ihb hbody).append (ihm hmore))
    rwa [← List.append_assoc _ _ (Phrase.print ns _)] at hall
  | forBlock htag _ hclose ihb | otherwise htag _ hclose ihb =>
    obtain ⟨hfirst, hrest⟩ := List.forall_mem_append.1 hwhole
    obtain ⟨hbody, hlast⟩ := List.forall_mem_append.1 hrest
    have hall := (respelled_directive hns (by simp) htag hfirst).append
      ((ihb hbody).append (respelled_directive hns (by simp) hclose hlast))
    rwa [← List.append_assoc _ _ (Head.print ns _ _)] at hall

end

/-! ## The whole text -/

/-- One whole directive is what the scanner takes it for. -/
theorem scan_enclose {d : Delim} {body : Text} {start : Nat} {inner : List Token} (hd : d ≠ .comment)
    (hcloses : d.Closes body) (hlexes : Lexes false start body inner) :
    ∃ dir : Directive, Token.scan (d.enclose body) = .ok dir.tokens ∧ Token.blocks dir.tokens = [.directive dir] ∧
      dir.delim = d := by
  have hinside : Inside d false (0 + 2) body _ := (inside_iff_lexes hd).2 (hlexes.move 2)
  have hscans := Scans.directive hcloses hinside .nil
  rw [List.append_nil] at hscans
  refine ⟨⟨d, ⟨.opener d, d.opener, 0⟩, _, ⟨.closer d, d.closer, _⟩⟩, Token.scan_eq_ok_iff.2 hscans, ?_, rfl⟩
  rw [Directive.tokens, Token.blocks_directive rfl rfl hinside.unclosed, Token.blocks]

section
variable {ns source : Text} {ps qs : List Piece} {heads : List Head}

theorem Stands.tail {offset next : Nat} {p : Piece} (h : Stands source offset (p :: ps))
    (hnext : next = offset + Text.byteSize p.raw) : Stands source next ps := by
  change Stands source offset ([p] ++ ps) at h
  simpa [hnext] using h.right

/-- Each directive of the source with what it says and what is written in its place. -/
theorem Respells.rewritings {offset : Nat} {ts : List Token} (h : Respells ns ps heads qs) (hlexed : Lexed offset ps ts)
    (hstands : Stands source offset ps) : ∃ rs : List Rewriting, rs.map Rewriting.directive = Token.directives ts ∧
      rs.map Rewriting.head = heads ∧ rs.map Rewriting.text = markups qs ∧ ∀ r ∈ rs, r.Sound source := by
  induction h generalizing offset ts with
  | nil =>
    cases hlexed
    exact ⟨[], by simp, rfl, rfl, by simp⟩
  | @quiet p ps qs heads hp _ ih =>
    rw [markups_cons, if_neg (by simp [hp])]
    cases hlexed with
    | text hmore =>
      rw [Token.directives_text_cons]
      exact ih hmore (hstands.tail rfl)
    | @directive _ d body _ _ _ hinside hmore =>
      have hd : d = .comment := by simpa [Piece.isMarkup] using hp
      subst hd
      rw [Token.directives_comment_cons rfl rfl hinside.unclosed]
      exact ih hmore (hstands.tail (by simp [Piece.raw, Delim.byteSize_enclose, Nat.add_assoc]))
  | @markup d body body' head _ _ inner _ ps qs heads hd hlexes hhead hcloses hlexes' hprint _ ih =>
    rw [markups_cons, if_pos (Piece.isMarkup_directive.2 hd)]
    cases hlexed with
    | @directive _ _ _ _ inner' _ hinside hmore =>
      obtain ⟨rs, hdirectives, hheads, htexts, hsound⟩ :=
        ih hmore (hstands.tail (by simp [Piece.raw, Delim.byteSize_enclose, Nat.add_assoc]))
      have hinner := (hlexes.move (offset + 2)).unique ((inside_iff_lexes hd).1 hinside)
      have hfirst : Stands source offset [.directive d body] := Stands.left hstands
      rw [Token.directives_markup_cons hd rfl rfl hinside.unclosed]
      refine ⟨⟨_, head, d.enclose body'⟩ :: rs, congrArg (_ :: ·) hdirectives, congrArg (_ :: ·) hheads,
        congrArg (_ :: ·) htexts, List.forall_mem_cons.2 ⟨⟨?_, scan_enclose hd hcloses hlexes', ?_⟩, hsound⟩⟩
      · rw [hinner]
        exact isHead_move _ _ hhead
      · intro hpassed
        rw [← hprint, Head.print_of_isPassedOn hpassed]
        exact (slice_directive hfirst).symm

end

/-- **Bringing a text over changes nothing but its directives.** The output is the source with a text in
the place of each variable and tag; these texts are whole directives, they are the directives that the
scanner finds in the output, and those that are passed on are the same as before. -/
theorem migrate_frame {settings : Settings} {source : Text} {m : Migration} (h : migrate settings source = .ok m) :
    ∃ ts us t rs, Token.scan source = .ok ts ∧ Token.scan m.output = .ok us ∧
      Template.parse source settings.ns = .ok t ∧ rs.map Rewriting.head = Template.heads t ∧
      Framed source m.output ts us rs := by
  obtain ⟨hns, t, hparse, -, rfl⟩ := migrate_eq_ok_iff.1 h
  obtain ⟨ps, hrow, rfl, hblocks, -⟩ := Template.pieces_of_parse hparse
  have hstands : Stands (raws ps) 0 ps := ⟨[], [], by simp, rfl⟩
  obtain ⟨ts, hlexed, -⟩ := tokens_of_pieces hblocks 0 hstands
  obtain ⟨qs, hrespells, houtput⟩ := respelled_blocks hns hblocks hrow.1
  obtain ⟨us, hlexed'⟩ := hrespells.lexed 0
  obtain ⟨rs, hdirectives, hheads, htexts, hsound⟩ := hrespells.rewritings hlexed hstands
  have hscans : Scans 0 (raws ps) ts := scans_iff_lexed.2 ⟨ps, hrow, rfl, hlexed⟩
  have hscans' : Scans 0 (raws qs) us := scans_iff_lexed.2 ⟨qs, hrow.kin (hrespells.kin hrow.1), rfl, hlexed'⟩
  obtain ⟨hgaps, hold⟩ := hlexed.gaps_all
  obtain ⟨hgaps', hnew⟩ := hlexed'.gaps_all
  change raws qs = Template.print settings.ns t at houtput
  refine ⟨ts, us, t, rs, Token.scan_eq_ok_iff.2 hscans, ?_, hparse, hheads, hdirectives, ?_, ?_, ?_, ?_, hsound⟩
  · rw [← houtput]
    exact Token.scan_eq_ok_iff.2 hscans'
  · rw [hgaps, hold, weave_pieceGaps, List.nil_append]
  · rw [hgaps, htexts, ← hrespells.pieceGaps, weave_pieceGaps, List.nil_append, houtput]
  · rw [← houtput, hnew, htexts]
  · rw [← houtput, hgaps', hgaps, hrespells.pieceGaps]

/-- A reserved namespace, braces that open and close nothing, and a comment around a variable. -/
theorem migrate_frame_reserved : ∃ source m,
    (source = "é \x7b %\x7d".toList ++ Delim.comment.enclose "\x7b\x7bx\x7d\x7d".toList ++
      Delim.var.enclose "x".toList ++ "\x7d\x7d".toList ++ Delim.tag.enclose "if y|raw".toList ++
      Delim.var.enclose "z:'d'".toList ++ Delim.tag.enclose "endif".toList ∧
    migrate ⟨false, "in".toList⟩ source = .ok m ∧
    m.output = "é \x7b %\x7d".toList ++ Delim.comment.enclose "\x7b\x7bx\x7d\x7d".toList ++
      Delim.var.enclose "in.x".toList ++ "\x7d\x7d".toList ++ Delim.tag.enclose "if y|raw".toList ++
      Delim.var.enclose "in.z|default:\"d\"".toList ++ Delim.tag.enclose " endif ".toList) ∧
    ∃ ts us t rs, Token.scan source = .ok ts ∧ Token.scan m.output = .ok us ∧
      Template.parse source "in".toList = .ok t ∧ rs.map Rewriting.head = Template.heads t ∧
      Framed source m.output ts us rs := by
  refine ⟨_, (exists_ok_of_toOption ?_).imp fun m h => ⟨⟨rfl, h⟩, migrate_frame h.1⟩⟩
  decide +kernel

end MailDialect
