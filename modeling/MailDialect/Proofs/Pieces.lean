import MailDialect.Migration
import MailDialect.Proofs.Parsing

/-!
# Templates as rows of pieces

A source is a row of pieces, each a plain text or a directive, and a template can be told from the
pieces without counting bytes. Main statements: the tokens of a source are the tokens of its pieces
(`scans_iff_lexed`), what the grammar derives from the tokens it derives from the pieces
(`pieces_of_tokens`), and back, places in the source apart (`tokens_of_pieces`).
-/

namespace MailDialect

open Grammar

/-! ## Pieces -/

/-- A plain text, or a directive with what stands between its delimiters. -/
inductive Piece
  | text (raw : Text)
  | directive (d : Delim) (body : Text)

namespace Piece

/-- The characters of a piece. -/
def raw : Piece → Text
  | text raw => raw
  | directive d body => d.enclose body

/-- A text in which no directive opens, or a directive that nothing inside it closes. -/
def Whole : Piece → Prop
  | text raw => raw ≠ [] ∧ Delim.Unopened raw
  | directive d body => d.Closes body

/-- Two pieces keep apart when they stand side by side. -/
def Apart : Piece → Piece → Prop
  | text _, text _ => False
  | text raw, directive _ _ => raw.getLast? ≠ some '{'
  | directive _ _, _ => True

end Piece

/-- The characters of pieces in a row. -/
def raws (ps : List Piece) : Text := ps.flatMap Piece.raw

@[simp] theorem raws_nil : raws [] = [] := rfl

@[simp] theorem raws_cons (p : Piece) (ps : List Piece) : raws (p :: ps) = p.raw ++ raws ps := rfl

@[simp] theorem raws_append (ps qs : List Piece) : raws (ps ++ qs) = raws ps ++ raws qs := by simp [raws]

/-- Pieces in a row that come apart again. -/
def Row (ps : List Piece) : Prop := (∀ p ∈ ps, p.Whole) ∧ ps.IsChain Piece.Apart

theorem row_cons {p : Piece} {ps : List Piece} :
    Row (p :: ps) ↔ p.Whole ∧ (∀ q ∈ ps.head?, p.Apart q) ∧ Row ps := by
  simp only [Row, List.forall_mem_cons, List.isChain_cons]
  tauto

/-- From byte `offset` on, pieces have the tokens `ts`. -/
inductive Lexed : Nat → List Piece → List Token → Prop
  | nil {offset : Nat} : Lexed offset [] []
  | text {offset : Nat} {raw : Text} {ps : List Piece} {ts : List Token}
    (hmore : Lexed (offset + Text.byteSize raw) ps ts) :
    Lexed offset (.text raw :: ps) (⟨.text, raw, offset⟩ :: ts)
  | directive {offset : Nat} {d : Delim} {body : Text} {ps : List Piece} {inner ts : List Token}
    (hinside : Inside d false (offset + 2) body inner)
    (hmore : Lexed (offset + 2 + Text.byteSize body + 2) ps ts) :
    Lexed offset (.directive d body :: ps)
      (⟨.opener d, d.opener, offset⟩ :: (inner ++ ⟨.closer d, d.closer, offset + 2 + Text.byteSize body⟩ :: ts))

theorem Delim.byteSize_enclose (d : Delim) (body : Text) :
    Text.byteSize (d.enclose body) = 2 + Text.byteSize body + 2 := by
  simp [Delim.enclose, Nat.add_assoc]

theorem Delim.unopened_snoc {raw : Text} :
    Delim.Unopened (raw ++ ['{']) ↔ Delim.Unopened raw ∧ raw.getLast? ≠ some '{' := by
  simp only [Unopened, List.isChain_append, List.isChain_singleton, true_and]
  refine and_congr_right fun _ => ⟨fun h heq => h _ heq _ rfl ⟨rfl, rfl⟩, fun h x hx y hy => ?_⟩
  rintro ⟨rfl, -⟩
  exact h hx

theorem take_raws_directive (d : Delim) (body : Text) (ps : List Piece) :
    (raws (.directive d body :: ps)).take 1 = ['{'] := by
  simp [Piece.raw, Delim.enclose, Delim.opener]

theorem Row.plain {raw : Text} {ps : List Piece} (h : Row (.text raw :: ps)) : Delim.Plain raw (raws ps) := by
  obtain ⟨⟨-, hunopened⟩, happart, -⟩ := row_cons.1 h
  cases ps with
  | nil => exact ⟨by simpa using hunopened, .inl rfl⟩
  | cons p ps =>
    cases p with
    | text next => exact (happart _ rfl).elim
    | directive d body =>
      refine ⟨?_, .inr (Delim.opens_enclose d body _)⟩
      rw [take_raws_directive, Delim.unopened_snoc]
      exact ⟨hunopened, happart _ rfl⟩

theorem row_of_plain {raw : Text} {ps : List Piece} (hne : raw ≠ []) (hps : Row ps)
    (h : Delim.Plain raw (raws ps)) : Row (.text raw :: ps) := by
  have hunopened : Delim.Unopened raw := (List.isChain_append.1 h.1).1
  refine row_cons.2 ⟨⟨hne, hunopened⟩, ?_, hps⟩
  cases ps with
  | nil => simp
  | cons p ps =>
    rintro q ⟨⟩
    cases p with
    | text next =>
      -- a text right behind another would belong to it
      obtain ⟨c, tail, rfl⟩ := List.exists_cons_of_ne_nil (row_cons.1 hps).1.1
      have hopens := h.2.resolve_left (by simp [Piece.raw])
      exact ((Delim.plain_cons.1 hps.plain).1 hopens).elim
    | directive d body =>
      have hsnoc := h.1
      rw [take_raws_directive, Delim.unopened_snoc] at hsnoc
      exact hsnoc.2

/-- **The tokens of a source are the tokens of its pieces.** -/
theorem scans_iff_lexed {offset : Nat} {text : Text} {ts : List Token} :
    Scans offset text ts ↔ ∃ ps, Row ps ∧ raws ps = text ∧ Lexed offset ps ts := by
  constructor
  · intro h
    induction h with
    | nil => exact ⟨[], ⟨by simp, List.isChain_nil⟩, rfl, .nil⟩
    | @text offset raw rest ts hne hplain hmore ih =>
      obtain ⟨ps, hps, rfl, hlexed⟩ := ih
      exact ⟨.text raw :: ps, row_of_plain hne hps hplain, rfl, .text hlexed⟩
    | @directive offset d body rest inner ts hcloses hinside hmore ih =>
      obtain ⟨ps, hps, rfl, hlexed⟩ := ih
      refine ⟨.directive d body :: ps, row_cons.2 ⟨hcloses, ?_, hps⟩, rfl, .directive hinside hlexed⟩
      exact fun q _ => trivial
  · rintro ⟨ps, hps, rfl, hlexed⟩
    induction hlexed with
    | nil => exact .nil
    | text hmore ih =>
      obtain ⟨⟨hne, -⟩, -, hrest⟩ := row_cons.1 hps
      exact .text hne hps.plain (ih hrest)
    | directive hinside hmore ih =>
      obtain ⟨hcloses, -, hrest⟩ := row_cons.1 hps
      exact .directive hcloses hinside (ih hrest)

theorem Lexed.append {offset : Nat} {ps qs : List Piece} {us vs : List Token} (h : Lexed offset ps us)
    (hmore : Lexed (offset + Text.byteSize (raws ps)) qs vs) : Lexed offset (ps ++ qs) (us ++ vs) := by
  induction h with
  | nil => simpa using hmore
  | text h ih =>
    refine .text (ih ?_)
    simpa [Piece.raw, Nat.add_assoc] using hmore
  | @directive offset d body ps inner ts hinside h ih =>
    rw [List.cons_append, List.cons_append, List.append_assoc, List.cons_append]
    refine .directive hinside (ih ?_)
    simpa [Piece.raw, Delim.byteSize_enclose, Nat.add_assoc] using hmore

/-! ## Where a directive ends -/

/-- None of the tokens closes the directive `d`. -/
def Unclosed (d : Delim) (ts : List Token) : Prop := ∀ t ∈ ts, t.kind ≠ .closer d

section
variable {d : Delim} {ts us : List Token}

theorem unclosed_append : Unclosed d (ts ++ us) ↔ Unclosed d ts ∧ Unclosed d us := List.forall_mem_append

theorem unclosed_cons {t : Token} : Unclosed d (t :: ts) ↔ t.kind ≠ .closer d ∧ Unclosed d ts :=
  List.forall_mem_cons

theorem unclosed_nil : Unclosed d [] := by simp [Unclosed]

theorem unclosed_commaList {α : Type} {Item : List Token → α → Prop} {as : List α}
    (hitem : ∀ ts a, Item ts a → Unclosed d ts) (h : CommaList Item ts as) : Unclosed d ts := by
  induction h with
  | one h => exact hitem _ _ h
  | more h hcomma _ ih =>
    exact unclosed_append.2 ⟨hitem _ _ h, unclosed_cons.2 ⟨by simp [hcomma], ih⟩⟩

theorem unclosed_literal {l : Literal} (h : IsLiteral ts l) : Unclosed d ts := by
  cases h <;> simp [Unclosed]

theorem unclosed_filters {fs : List Filter} (h : IsFilters ts fs) : Unclosed d ts := by
  induction h with
  | nil => exact unclosed_nil
  | @cons bar ts us f fs hbar hfilter hmore ih =>
    have hf : Unclosed d ts := by
      cases hfilter with
      | bare hname => simp [Unclosed, hname]
      | colon hname hcolon hargs =>
        simp [unclosed_cons, hname, hcolon, unclosed_commaList (fun _ _ => unclosed_literal) hargs]
      | emptyCall hname hopening hclosing => simp [Unclosed, hname, hopening, hclosing]
      | call hname hopening hargs hclosing =>
        simp [unclosed_cons, unclosed_append, unclosed_nil, hname, hopening, hclosing,
          unclosed_commaList (fun _ _ => unclosed_literal) hargs]
    exact unclosed_cons.2 ⟨by simp [hbar], unclosed_append.2 ⟨hf, ih⟩⟩

theorem unclosed_path {p : Path} {marked : Bool} (h : IsPath ts p marked) : Unclosed d ts := by
  intro t ht hclose
  simpa [hclose, Token.Kind.isWord] using kinds_of_isPath h t ht

theorem unclosed_expr {level : Level} {e : Expr} (h : IsExpr level ts e) : Unclosed d ts := by
  induction h with
  | path h => exact unclosed_path h
  | filtered hpath hfilters => exact unclosed_append.2 ⟨unclosed_path hpath, unclosed_filters hfilters⟩
  | literal h => exact unclosed_literal h
  | group hopening _ hclosing ih =>
    simp [unclosed_cons, unclosed_append, unclosed_nil, hopening, hclosing, ih]
  | single _ ih | affirmed _ ih | conjunct _ ih | disjunct _ ih => exact ih
  | compare _ hop _ ihl ihr => simp [unclosed_cons, unclosed_append, hop, ihl, ihr]
  | not hword _ ih => simp [unclosed_cons, hword, ih]
  | and _ hword _ ihl ihr | or _ hword _ ihl ihr => simp [unclosed_cons, unclosed_append, hword, ihl, ihr]

theorem unclosed_loopSource {source : LoopSource} (h : IsLoopSource ts source) : Unclosed d ts := by
  cases h with
  | collection hpath hfilters => exact unclosed_append.2 ⟨unclosed_path hpath, unclosed_filters hfilters⟩
  | range hword hopening hbounds _ hclosing =>
    have hbound : ∀ ts b, IsBound ts b → Unclosed d ts := by
      rintro ts b (h | h)
      · exact unclosed_literal h
      · exact unclosed_path h
    simp [unclosed_cons, unclosed_append, unclosed_nil, hword, hopening, hclosing,
      unclosed_commaList hbound hbounds]

/-- The tokens of a directive hold no closer of it. -/
theorem unclosed_head {head : Head} (h : IsHead d ts head) : Unclosed d ts := by
  cases h with
  | var hpath hdefault hfilters =>
    have hd : ∀ {ts value}, IsDefault ts value → Unclosed .var ts := by
      rintro _ _ (_ | hcolon) <;> simp_all [Unclosed]
    exact unclosed_append.2 ⟨unclosed_append.2 ⟨unclosed_path hpath, hd hdefault⟩, unclosed_filters hfilters⟩
  | ifTag hword hc | elseif hword hc => simp [unclosed_cons, hword, unclosed_expr hc]
  | elseIf hword hsecond hc => simp [unclosed_cons, hword, hsecond, unclosed_expr hc]
  | elseTag hword | endifTag hword | endforTag hword => simp [Unclosed, hword]
  | forTag hword hname hsecond hsource => simp [unclosed_cons, hword, hname, hsecond, unclosed_loopSource hsource]
  | opening hname _ hargs => exact unclosed_cons.2 ⟨by simp [hname], hargs⟩
  | closing hname _ _ hargs => exact unclosed_cons.2 ⟨by simp [hname], hargs⟩

theorem Lexes.unclosed {b : Bool} {offset : Nat} {body : Text} (h : Lexes b offset body ts) : Unclosed d ts := by
  induction h with
  | blank => exact unclosed_nil
  | lexeme _ _ hread _ ih =>
    refine unclosed_cons.2 ⟨fun hclose => ?_, ih⟩
    have hfits := Lexeme.fits hread
    simp only at hclose
    rw [hclose] at hfits
    exact hfits

theorem Inside.unclosed {b : Bool} {offset : Nat} {body : Text} (h : Inside d b offset body ts) : Unclosed d ts := by
  cases d with
  | comment =>
    simp only [Inside] at h
    subst h
    split <;> simp [Unclosed]
  | var | tag => exact Lexes.unclosed h

theorem unclosed_append_inj {close close' : Token} {rest rest' : List Token} (hts : Unclosed d ts)
    (hus : Unclosed d us) (hclose : close.kind = .closer d) (hclose' : close'.kind = .closer d)
    (h : ts ++ close :: rest = us ++ close' :: rest') : ts = us ∧ close :: rest = close' :: rest' := by
  have hsplit : ∀ (ts : List Token) (close : Token) (rest : List Token), Unclosed d ts → close.kind = .closer d →
      (ts ++ close :: rest).takeWhile (fun t => t.kind != .closer d) = ts ∧
      (ts ++ close :: rest).dropWhile (fun t => t.kind != .closer d) = close :: rest := by
    intro ts close rest hts hclose
    exact takeWhile_append_of_ends (by simpa [Unclosed] using hts) _ (by simp [hclose])
  obtain ⟨htake, hdrop⟩ := hsplit ts close rest hts hclose
  obtain ⟨htake', hdrop'⟩ := hsplit us close' rest' hus hclose'
  rw [h] at htake hdrop
  exact ⟨htake.symm.trans htake', hdrop.symm.trans hdrop'⟩

end

/-- The tokens of a directive end at its first closer. -/
theorem Lexed.directive_inv {offset : Nat} {ps : List Piece} {d : Delim} {opening closing : Token}
    {inner rest : List Token} (h : Lexed offset ps (opening :: (inner ++ closing :: rest)))
    (hopening : opening.kind = .opener d) (hclosing : closing.kind = .closer d) (hinner : Unclosed d inner) :
    ∃ body more, ps = .directive d body :: more ∧ Inside d false (offset + 2) body inner ∧
      opening.offset = offset ∧ closing.stop = offset + Text.byteSize (d.enclose body) ∧
      Lexed (offset + Text.byteSize (d.enclose body)) more rest := by
  generalize hts : opening :: (inner ++ closing :: rest) = ts at h
  cases h with
  | nil => cases hts
  | text => obtain ⟨rfl, -⟩ := List.cons.inj hts; cases hopening
  | @directive _ d' body ps inner' ts hinside hmore =>
    obtain ⟨rfl, htail⟩ := List.cons.inj hts
    cases hopening
    obtain ⟨rfl, hclose⟩ := unclosed_append_inj hinner hinside.unclosed hclosing rfl htail
    obtain ⟨rfl, rfl⟩ := List.cons.inj hclose
    refine ⟨body, ps, rfl, hinside, rfl, ?_, ?_⟩
    · simp [Token.stop, Delim.byteSize_enclose, Nat.add_assoc]
    · simpa [Delim.byteSize_enclose, Nat.add_assoc] using hmore

/-! ## Places -/

/-- Pieces stand in a source from byte `offset` on. -/
def Stands (source : Text) (offset : Nat) (ps : List Piece) : Prop :=
  ∃ before after, source = before ++ raws ps ++ after ∧ Text.byteSize before = offset

section
variable {source : Text} {offset : Nat} {ps qs : List Piece}

theorem Stands.left (h : Stands source offset (ps ++ qs)) : Stands source offset ps := by
  obtain ⟨before, after, hsource, hsize⟩ := h
  exact ⟨before, raws qs ++ after, by simp [hsource], hsize⟩

theorem Stands.right (h : Stands source offset (ps ++ qs)) :
    Stands source (offset + Text.byteSize (raws ps)) qs := by
  obtain ⟨before, after, hsource, hsize⟩ := h
  exact ⟨before ++ raws ps, after, by simp [hsource], by simp [hsize]⟩

theorem Stands.slice {p : Piece} (h : Stands source offset (p :: ps)) :
    Text.slice source offset (offset + Text.byteSize p.raw) = p.raw := by
  obtain ⟨before, after, hsource, rfl⟩ := h
  have hparts : source = before ++ p.raw ++ (raws ps ++ after) := by simp [hsource]
  rw [hparts, Text.slice_append_append]

end

/-- Pieces spell a text or a directive one by one. Where a directive stands does not matter. -/
def pieces : Spelling Piece where
  text ps raw := ps = [.text raw]
  comment ps raw := ∃ body, ps = [.directive .comment body] ∧ raw = Delim.comment.enclose body
  directive d ps head span := ∃ body start inner, ps = [.directive d body] ∧ span.raw = d.enclose body ∧
    Lexes false start body inner ∧ IsHead d inner head

/-! ## From tokens to pieces -/

/-- Wherever the tokens `ts` come first, they come from pieces with `P`. -/
def Cut (source : Text) (ts : List Token) (P : List Piece → Prop) : Prop :=
  ∀ offset ps rest, Lexed offset ps (ts ++ rest) → Stands source offset ps →
    ∃ used more, ps = used ++ more ∧ Lexed (offset + Text.byteSize (raws used)) more rest ∧ P used

section
variable {source : Text} {ts us : List Token} {P Q : List Piece → Prop}

theorem Cut.append (h : Cut source ts P) (h' : Cut source us Q) :
    Cut source (ts ++ us) fun used => ∃ a b, used = a ++ b ∧ P a ∧ Q b := by
  intro offset ps rest hlexed hstands
  rw [List.append_assoc] at hlexed
  obtain ⟨a, mid, rfl, hlexed, ha⟩ := h _ _ _ hlexed hstands
  obtain ⟨b, more, rfl, hlexed, hb⟩ := h' _ _ _ hlexed hstands.right
  exact ⟨a ++ b, more, by simp, by simpa [Nat.add_assoc] using hlexed, a, b, rfl, ha, hb⟩

theorem Cut.imp (h : Cut source ts P) (himp : ∀ {used}, P used → Q used) : Cut source ts Q := by
  intro offset ps rest hlexed hstands
  obtain ⟨used, more, hsplit, hmore, hused⟩ := h _ _ _ hlexed hstands
  exact ⟨used, more, hsplit, hmore, himp hused⟩

theorem cut_directive {d : Delim} {head : Head} {span : Span} (h : (tokens source).directive d ts head span)
    (hd : d ≠ .comment) : Cut source ts fun used => pieces.directive d used head span := by
  intro offset ps rest hlexed hstands
  obtain ⟨opening, inner, closing, rfl, hopening, hclosing, hhead, rfl⟩ := h
  rw [List.cons_append, List.append_assoc, List.singleton_append] at hlexed
  obtain ⟨body, more, rfl, hinside, hoffset, hstop, hmore⟩ :=
    hlexed.directive_inv hopening hclosing (unclosed_head hhead)
  have hlexes : Lexes false (offset + 2) body inner := by cases d <;> first | exact hinside | exact (hd rfl).elim
  refine ⟨[.directive d body], more, rfl, by simpa [Piece.raw] using hmore, body, _, inner, rfl, ?_, hlexes, hhead⟩
  rw [hoffset, hstop]
  exact hstands.slice

theorem cut_comment {raw : Text} (h : (tokens source).comment ts raw) :
    Cut source ts fun used => pieces.comment used raw := by
  intro offset ps rest hlexed hstands
  obtain ⟨opening, body, closing, rfl, hopening, hclosing, hbody, rfl⟩ := h
  rw [List.cons_append, List.append_assoc, List.singleton_append] at hlexed
  have hunclosed : Unclosed .comment body := by
    rcases hbody with rfl | ⟨t, rfl, ht⟩ <;> simp_all [Unclosed]
  obtain ⟨body', more, rfl, -, hoffset, hstop, hmore⟩ := hlexed.directive_inv hopening hclosing hunclosed
  refine ⟨[.directive .comment body'], more, rfl, by simpa [Piece.raw] using hmore, body', rfl, ?_⟩
  rw [hoffset, hstop]
  exact hstands.slice

theorem cut_text {raw : Text} (h : (tokens source).text ts raw) :
    Cut source ts fun used => pieces.text used raw := by
  intro offset ps rest hlexed hstands
  obtain ⟨o, rfl⟩ := h
  cases hlexed with
  | text hmore => exact ⟨[.text _], _, rfl, by simpa [Piece.raw] using hmore, rfl⟩

end

/-- **What the grammar derives from the tokens of pieces it derives from the pieces.** -/
theorem pieces_of_tokens {source : Text} {ts : List Token} {phrase : Phrase}
    (h : Blocks (tokens source) ts phrase) : Cut source ts fun used => Blocks pieces used phrase := by
  induction h with
  | nil => exact fun _ _ _ hlexed _ => ⟨[], _, rfl, by simpa using hlexed, .nil⟩
  | cons _ _ ihf ihm => exact (ihf.append ihm).imp fun ⟨_, _, heq, hn, hns⟩ => heq ▸ .cons hn hns
  | text h => exact (cut_text h).imp .text
  | comment h => exact (cut_comment h).imp .comment
  | var h => exact (cut_directive h (by simp)).imp .var
  | unsupported h => exact (cut_directive h (by simp)).imp .unsupported
  | endif h => exact (cut_directive h (by simp)).imp .endif
  | ifBlock htag _ _ ihb ihm =>
    refine ((cut_directive htag (by simp)).append (ihb.append ihm)).imp ?_
    rintro _ ⟨a, _, rfl, ht, b, r, rfl, hb, hm⟩
    exact .ifBlock ht hb hm
  | elseif htag _ _ ihb ihm =>
    refine ((cut_directive htag (by simp)).append (ihb.append ihm)).imp ?_
    rintro _ ⟨a, _, rfl, ht, b, r, rfl, hb, hm⟩
    exact .elseif ht hb hm
  | forBlock htag _ hclose ihb =>
    refine ((cut_directive htag (by simp)).append (ihb.append (cut_directive hclose (by simp)))).imp ?_
    rintro _ ⟨a, _, rfl, ht, b, r, rfl, hb, hc⟩
    exact .forBlock ht hb hc
  | otherwise htag _ hclose ihb =>
    refine ((cut_directive htag (by simp)).append (ihb.append (cut_directive hclose (by simp)))).imp ?_
    rintro _ ⟨a, _, rfl, ht, b, r, rfl, hb, hc⟩
    exact .otherwise ht hb hc

/-! ## The same tokens at another place -/

section
variable {ts : List Token} (start place : Nat)

theorem commaList_move {α : Type} {Item : List Token → α → Prop} {as : List α}
    (hitem : ∀ ts a, Item ts a → Item (ts.map (Token.move start place)) a) (h : CommaList Item ts as) :
    CommaList Item (ts.map (Token.move start place)) as := by
  induction h with
  | one h => exact .one (hitem _ _ h)
  | more h hcomma _ ih => rw [List.map_append]; exact .more (hitem _ _ h) hcomma ih

theorem isLiteral_move {l : Literal} (h : IsLiteral ts l) : IsLiteral (ts.map (Token.move start place)) l := by
  cases h <;> constructor

theorem isFilters_move {fs : List Filter} (h : IsFilters ts fs) :
    IsFilters (ts.map (Token.move start place)) fs := by
  induction h with
  | nil => exact .nil
  | @cons bar ts us f fs hbar hfilter _ ih =>
    have hf : IsFilter (ts.map (Token.move start place)) f := by
      cases hfilter with
      | bare hname => exact .bare hname
      | colon hname hcolon hargs =>
        exact .colon hname hcolon (commaList_move start place (fun _ _ => isLiteral_move start place) hargs)
      | emptyCall hname hopening hclosing => exact .emptyCall hname hopening hclosing
      | call hname hopening hargs hclosing =>
        rw [List.map_cons, List.map_cons, List.map_append]
        exact .call hname hopening (commaList_move start place (fun _ _ => isLiteral_move start place) hargs) hclosing
    rw [List.map_cons, List.map_append]
    exact .cons hbar hf ih

theorem isPath_move {p : Path} {marked : Bool} (h : IsPath ts p marked) :
    IsPath (ts.map (Token.move start place)) p marked := by
  have hfields : ∀ {ts fields}, IsFields ts fields → IsFields (ts.map (Token.move start place)) fields := by
    intro ts fields h
    induction h with
    | nil => exact .nil
    | cons hpoint hfield _ ih => exact .cons hpoint hfield ih
  cases h with
  | plain hbase h => exact .plain hbase (hfields h)
  | marked hmarker htext hcolon hbase h => exact .marked hmarker htext hcolon hbase (hfields h)

theorem isExpr_move {level : Level} {e : Expr} (h : IsExpr level ts e) :
    IsExpr level (ts.map (Token.move start place)) e := by
  induction h with
  | path h => exact .path (isPath_move start place h)
  | filtered hpath hfilters hne =>
    rw [List.map_append]
    exact .filtered (isPath_move start place hpath) (isFilters_move start place hfilters) hne
  | literal h => exact .literal (isLiteral_move start place h)
  | group hopening _ hclosing ih => rw [List.map_cons, List.map_append]; exact .group hopening ih hclosing
  | single _ ih => exact .single ih
  | affirmed _ ih => exact .affirmed ih
  | conjunct _ ih => exact .conjunct ih
  | disjunct _ ih => exact .disjunct ih
  | compare _ hop _ ihl ihr => rw [List.map_append]; exact .compare ihl hop ihr
  | not hword _ ih => exact .not hword ih
  | and _ hword _ ihl ihr => rw [List.map_append]; exact .and ihl hword ihr
  | or _ hword _ ihl ihr => rw [List.map_append]; exact .or ihl hword ihr

theorem isLoopSource_move {source : LoopSource} (h : IsLoopSource ts source) :
    IsLoopSource (ts.map (Token.move start place)) source := by
  cases h with
  | collection hpath hfilters =>
    rw [List.map_append]
    exact .collection (isPath_move start place hpath) (isFilters_move start place hfilters)
  | range hword hopening hbounds hfew hclosing =>
    have hbound : ∀ ts b, IsBound ts b → IsBound (ts.map (Token.move start place)) b := by
      rintro ts b (h | h)
      · exact .literal (isLiteral_move start place h)
      · exact .name (isPath_move start place h)
    rw [List.map_cons, List.map_cons, List.map_append]
    exact .range hword hopening (commaList_move start place hbound hbounds) hfew hclosing

/-- What a directive says does not depend on where it stands. -/
theorem isHead_move {d : Delim} {head : Head} (h : IsHead d ts head) :
    IsHead d (ts.map (Token.move start place)) head := by
  have hkinds : ∀ {ts : List Token}, (∀ t ∈ ts, t.kind ≠ .closer .tag) →
      ∀ t ∈ ts.map (Token.move start place), t.kind ≠ .closer .tag := by
    intro ts h t ht
    obtain ⟨u, hu, rfl⟩ := List.mem_map.1 ht
    exact h u hu
  cases h with
  | var hpath hdefault hfilters =>
    have hd : ∀ {ts value}, IsDefault ts value → IsDefault (ts.map (Token.move start place)) value := by
      rintro _ _ (_ | hcolon)
      · exact .none
      · exact .some hcolon
    rw [List.map_append, List.map_append]
    exact .var (isPath_move start place hpath) (hd hdefault) (isFilters_move start place hfilters)
  | ifTag hword hc => exact .ifTag hword (isExpr_move start place hc)
  | elseif hword hc => exact .elseif hword (isExpr_move start place hc)
  | elseIf hword hsecond hc => exact .elseIf hword hsecond (isExpr_move start place hc)
  | elseTag hword => exact .elseTag hword
  | endifTag hword => exact .endifTag hword
  | endforTag hword => exact .endforTag hword
  | forTag hword hname hsecond hsource => exact .forTag hword hname hsecond (isLoopSource_move start place hsource)
  | opening hname htag hargs => exact .opening hname htag (hkinds hargs)
  | closing hname htext htag hargs => exact .closing hname htext htag (hkinds hargs)

end

/-! ## Templates without places -/

def Span.unplaced (s : Span) : Span := ⟨s.raw, 0⟩

mutual

/-- A node with the places of its directives taken away. -/
def Node.unplaced : Node → Node
  | .text raw => .text raw
  | .comment raw => .comment raw
  | .var v => .var { v with span := v.span.unplaced }
  | .ifBlock c tag body more => .ifBlock c tag.unplaced (Template.unplaced body) more.unplaced
  | .forBlock name source tag body => .forBlock name source tag.unplaced (Template.unplaced body)
  | .unsupported u => .unsupported { u with span := u.span.unplaced }

def Alternative.unplaced : Alternative → Alternative
  | .endif => .endif
  | .otherwise body => .otherwise (Template.unplaced body)
  | .elseif c tag body more => .elseif c tag.unplaced (Template.unplaced body) more.unplaced

def Template.unplaced : Template → Template
  | [] => []
  | n :: ns => n.unplaced :: Template.unplaced ns

end

/-! ## From pieces to tokens -/

/-- Wherever the pieces `ps` stand, they have tokens with `P`. -/
def Gets (source : Text) (ps : List Piece) (P : List Token → Prop) : Prop :=
  ∀ offset, Stands source offset ps → ∃ ts, Lexed offset ps ts ∧ P ts

section
variable {source : Text} {ps qs : List Piece} {P Q : List Token → Prop}

theorem Gets.append (h : Gets source ps P) (h' : Gets source qs Q) :
    Gets source (ps ++ qs) fun ts => ∃ a b, ts = a ++ b ∧ P a ∧ Q b := by
  intro offset hstands
  obtain ⟨a, hlexed, ha⟩ := h offset hstands.left
  obtain ⟨b, hlexed', hb⟩ := h' _ hstands.right
  exact ⟨a ++ b, hlexed.append hlexed', a, b, rfl, ha, hb⟩

theorem Gets.imp (h : Gets source ps P) (himp : ∀ {ts}, P ts → Q ts) : Gets source ps Q := by
  intro offset hstands
  obtain ⟨ts, hlexed, hts⟩ := h offset hstands
  exact ⟨ts, hlexed, himp hts⟩

theorem slice_directive {offset : Nat} {d : Delim} {body : Text} (h : Stands source offset [.directive d body]) :
    Text.slice source offset (Token.stop ⟨.closer d, d.closer, offset + 2 + Text.byteSize body⟩) = d.enclose body := by
  have hslice := h.slice
  rw [Piece.raw, Delim.byteSize_enclose] at hslice
  rw [Token.stop, Delim.byteSize_closer, Nat.add_assoc, Nat.add_assoc, ← Nat.add_assoc 2]
  exact hslice

theorem gets_directive {d : Delim} {head : Head} {span : Span} (h : pieces.directive d ps head span)
    (hd : d ≠ .comment) : Gets source ps fun ts => ∃ span', (tokens source).directive d ts head span' ∧
      span'.unplaced = span.unplaced := by
  intro offset hstands
  obtain ⟨body, start, inner, rfl, hraw, hlexes, hhead⟩ := h
  have hmoved := hlexes.move (offset + 2)
  have hinside : Inside d false (offset + 2) body (inner.map (Token.move start (offset + 2))) := by
    cases d <;> first | exact hmoved | exact (hd rfl).elim
  refine ⟨_, .directive hinside .nil, _, ⟨_, _, _, rfl, rfl, rfl, isHead_move _ _ hhead, rfl⟩, ?_⟩
  rw [slice_directive hstands, Span.unplaced, Span.unplaced, hraw]

theorem gets_comment {raw : Text} (h : pieces.comment ps raw) :
    Gets source ps fun ts => (tokens source).comment ts raw := by
  intro offset hstands
  obtain ⟨body, rfl, rfl⟩ := h
  have hinside : Inside .comment false (offset + 2) body (if body = [] then [] else [⟨.text, body, offset + 2⟩]) := rfl
  refine ⟨_, .directive hinside .nil, _, _, _, rfl, rfl, rfl, ?_, (slice_directive hstands).symm⟩
  split <;> simp

theorem gets_text {raw : Text} (h : pieces.text ps raw) : Gets source ps fun ts => (tokens source).text ts raw := by
  intro offset hstands
  cases h
  exact ⟨_, .text .nil, offset, rfl⟩

end

/-- Tokens are derived as a phrase, places apart. -/
def DerivesUnplaced (source : Text) (ts : List Token) : Phrase → Prop
  | .node n => ∃ n', Blocks (tokens source) ts (.node n') ∧ n'.unplaced = n.unplaced
  | .nodes ns => ∃ ns', Blocks (tokens source) ts (.nodes ns') ∧ Template.unplaced ns' = Template.unplaced ns
  | .alternative a => ∃ a', Blocks (tokens source) ts (.alternative a') ∧ a'.unplaced = a.unplaced

/-- **What the grammar derives from pieces it derives from their tokens**, places apart. -/
theorem tokens_of_pieces {source : Text} {ps : List Piece} {phrase : Phrase} (h : Blocks pieces ps phrase) :
    Gets source ps fun ts => DerivesUnplaced source ts phrase := by
  induction h with
  | nil => exact fun _ _ => ⟨[], .nil, [], .nil, rfl⟩
  | cons _ _ ihf ihm =>
    refine (ihf.append ihm).imp ?_
    rintro _ ⟨a, b, rfl, ⟨n, hn, hn'⟩, ns, hns, hns'⟩
    exact ⟨n :: ns, .cons hn hns, by simp only [Template.unplaced, hn', hns']⟩
  | text h => exact (gets_text h).imp fun h => ⟨_, .text h, rfl⟩
  | comment h => exact (gets_comment h).imp fun h => ⟨_, .comment h, rfl⟩
  | var h =>
    refine (gets_directive h (by simp)).imp ?_
    rintro _ ⟨span, h, hspan⟩
    exact ⟨_, .var h, by simp only [Node.unplaced, hspan]⟩
  | unsupported h =>
    refine (gets_directive h (by simp)).imp ?_
    rintro _ ⟨span, h, hspan⟩
    exact ⟨_, .unsupported h, by simp only [Node.unplaced, hspan]⟩
  | endif h =>
    refine (gets_directive h (by simp)).imp ?_
    rintro _ ⟨span, h, -⟩
    exact ⟨_, .endif h, rfl⟩
  | ifBlock htag _ _ ihb ihm =>
    refine ((gets_directive htag (by simp)).append (ihb.append ihm)).imp ?_
    rintro _ ⟨a, _, rfl, ⟨tag, ht, htag'⟩, b, r, rfl, ⟨body, hb, hb'⟩, more, hm, hm'⟩
    exact ⟨_, .ifBlock ht hb hm, by simp only [Node.unplaced, htag', hb', hm']⟩
  | elseif htag _ _ ihb ihm =>
    refine ((gets_directive htag (by simp)).append (ihb.append ihm)).imp ?_
    rintro _ ⟨a, _, rfl, ⟨tag, ht, htag'⟩, b, r, rfl, ⟨body, hb, hb'⟩, more, hm, hm'⟩
    exact ⟨_, .elseif ht hb hm, by simp only [Alternative.unplaced, htag', hb', hm']⟩
  | forBlock htag _ hclose ihb =>
    refine ((gets_directive htag (by simp)).append (ihb.append (gets_directive hclose (by simp)))).imp ?_
    rintro _ ⟨a, _, rfl, ⟨tag, ht, htag'⟩, b, r, rfl, ⟨body, hb, hb'⟩, close, hc, -⟩
    exact ⟨_, .forBlock ht hb hc, by simp only [Node.unplaced, htag', hb']⟩
  | otherwise htag _ hclose ihb =>
    refine ((gets_directive htag (by simp)).append (ihb.append (gets_directive hclose (by simp)))).imp ?_
    rintro _ ⟨a, _, rfl, ⟨tag, ht, -⟩, b, r, rfl, ⟨body, hb, hb'⟩, close, hc, -⟩
    exact ⟨_, .otherwise ht hb hc, by simp only [Alternative.unplaced, hb']⟩

/-! ## Sources -/

mutual

theorem Node.unplaced_rescope (f : Scoping) (bound : List Text) :
    ∀ n : Node, (n.rescope f bound).unplaced = n.unplaced.rescope f bound
  | .text _ => rfl
  | .comment _ => rfl
  | .var _ => rfl
  | .unsupported _ => rfl
  | .ifBlock c tag body more => by
    simp only [Node.rescope, Node.unplaced, Template.unplaced_rescope, Alternative.unplaced_rescope]
  | .forBlock name source tag body => by simp only [Node.rescope, Node.unplaced, Template.unplaced_rescope]

theorem Alternative.unplaced_rescope (f : Scoping) (bound : List Text) :
    ∀ a : Alternative, (a.rescope f bound).unplaced = a.unplaced.rescope f bound
  | .endif => rfl
  | .otherwise body => by simp only [Alternative.rescope, Alternative.unplaced, Template.unplaced_rescope]
  | .elseif c tag body more => by
    simp only [Alternative.rescope, Alternative.unplaced, Template.unplaced_rescope, Alternative.unplaced_rescope]

theorem Template.unplaced_rescope (f : Scoping) (bound : List Text) :
    ∀ t : Template, Template.unplaced (Template.rescope f bound t) = Template.rescope f bound (Template.unplaced t)
  | [] => rfl
  | n :: ns => by simp only [Template.rescope, Template.unplaced, Node.unplaced_rescope, Template.unplaced_rescope]

end

theorem Template.parse_eq_ok_iff {source ns : Text} {t : Template} : Template.parse source ns = .ok t ↔
    ∃ ts, Token.scan source = .ok ts ∧ Template.ofTokens source ts ns = .ok t := by
  unfold Template.parse
  cases Token.scan source with
  | error e => simp [Except.mapError, bind, Except.bind]
  | ok ts =>
    simp only [Except.mapError, bind, Except.bind, Except.ok.injEq, exists_eq_left']
    cases Template.ofTokens source ts ns <;> simp

/-- A source that can be read is a row of pieces that spell its template. -/
theorem Template.pieces_of_parse {source ns : Text} {t : Template} (h : Template.parse source ns = .ok t) :
    ∃ ps, Row ps ∧ raws ps = source ∧ Blocks pieces ps (.nodes t) ∧ Template.rescope (.lexical ns) [] t = t := by
  obtain ⟨ts, hscan, htokens⟩ := Template.parse_eq_ok_iff.1 h
  have hscans := Token.scan_eq_ok_iff.1 hscan
  obtain ⟨htemplate, hscope⟩ := (Template.ofTokens_eq_ok_iff hscans.orderly).1 htokens
  obtain ⟨ps, hrow, rfl, hlexed⟩ := scans_iff_lexed.1 hscans
  rw [← List.append_nil ts] at hlexed
  obtain ⟨used, more, rfl, hmore, hblocks⟩ := pieces_of_tokens htemplate 0 ps [] hlexed ⟨[], [], by simp, rfl⟩
  cases hmore with
  | nil => exact ⟨used, by simpa using hrow, by simp, hblocks, hscope⟩

/-- A row of pieces that spell a template can be read as that template, places and scopes apart. -/
theorem Template.parse_of_pieces {ps : List Piece} {t : Template} (hrow : Row ps) (h : Blocks pieces ps (.nodes t))
    (ns : Text) : ∃ t', Template.parse (raws ps) ns = .ok t' ∧
      Template.unplaced t' = Template.unplaced (Template.rescope (.lexical ns) [] t) := by
  have hstands : Stands (raws ps) 0 ps := ⟨[], [], by simp, rfl⟩
  obtain ⟨ts, hlexed, t', htemplate, hplaces⟩ := tokens_of_pieces h 0 hstands
  have hscans : Scans 0 (raws ps) ts := scans_iff_lexed.2 ⟨ps, hrow, rfl, hlexed⟩
  refine ⟨_, Template.parse_eq_ok_iff.2 ⟨ts, Token.scan_eq_ok_iff.2 hscans,
    Template.ofTokens_of_isTemplate hscans.orderly htemplate⟩, ?_⟩
  rw [Template.unplaced_rescope, Template.unplaced_rescope, hplaces]

end MailDialect
