import MailDialect.Proofs.Pieces

/-!
# Tokens in blocks

The tokens of a source come in blocks: a plain text by itself, or a directive from its opener to its
closer. Main statement: scanning loses nothing (`Lossless`) and brackets every directive
(`WellBracketed`). Each token is a piece of the source at its own place, what is left out between two
tokens is white space inside a variable or a tag, and the closer of a directive is the first that
stands behind its opener (`Token.scan_in_blocks`).
-/

namespace MailDialect

open Unicode

/-! ## Blocks -/

/-- A directive as its tokens show it. -/
structure Directive where
  delim : Delim
  opening : Token
  inner : List Token
  closing : Token
deriving DecidableEq, Repr

namespace Directive

/-- The tokens of a directive. -/
def tokens (dir : Directive) : List Token := dir.opening :: (dir.inner ++ [dir.closing])

/-- The byte where a directive starts. -/
def start (dir : Directive) : Nat := dir.opening.offset

/-- The byte after a directive. -/
def stop (dir : Directive) : Nat := dir.closing.stop

/-- A directive as it stands in the source. -/
def text (source : Text) (dir : Directive) : Text := Text.slice source dir.start dir.stop

end Directive

/-- Tokens that belong together: a plain text, or a directive. -/
inductive Block
  | text (t : Token)
  | directive (dir : Directive)
deriving DecidableEq, Repr

namespace Block

def tokens : Block → List Token
  | text t => [t]
  | directive dir => dir.tokens

def start : Block → Nat
  | text t => t.offset
  | directive dir => dir.start

def stop : Block → Nat
  | text t => t.stop
  | directive dir => dir.stop

def isText : Block → Bool
  | text _ => true
  | directive _ => false

end Block

/-- Tokens divided into blocks: an opener begins a directive, and the next closer of its kind ends it. -/
def Token.blocks : List Token → List Block
  | [] => []
  | t :: ts =>
    match t.kind with
    | .opener d =>
      match _h : ts.dropWhile fun u => u.kind != .closer d with
      | [] => [.text t]
      | closing :: rest =>
        .directive ⟨d, t, ts.takeWhile fun u => u.kind != .closer d, closing⟩ :: blocks rest
    | _ => .text t :: blocks ts
termination_by ts => ts.length
decreasing_by
  · have := (List.dropWhile_sublist (fun u : Token => u.kind != .closer d) (l := ts)).length_le
    rw [_h, List.length_cons] at this
    simp only [List.length_cons]
    omega
  · simp

/-- A directive that is no comment. -/
def Block.markup? : Block → Option Directive
  | text _ => none
  | directive dir => if dir.delim = .comment then none else some dir

/-- The variables and tags among tokens, in their order. -/
def Token.directives (ts : List Token) : List Directive := (Token.blocks ts).filterMap Block.markup?

/-! ## What blocks have to be -/

/-- A token of this kind stands only between the delimiters of a variable or a tag. -/
def Token.Kind.isLexeme : Token.Kind → Bool
  | .text => false
  | .opener _ => false
  | .closer _ => false
  | _ => true

/-- A token is the piece of the source at its place, which starts and ends between two characters. -/
def Token.StandsIn (source : Text) (t : Token) : Prop :=
  ∃ before after, source = before ++ t.text ++ after ∧ Text.byteSize before = t.offset

/-- The next token starts where a token stops. -/
def Token.Touches (t u : Token) : Prop := t.stop = u.offset

/-- Only white space stands between a token and the next. -/
def Token.Spaced (source : Text) (t u : Token) : Prop :=
  t.stop ≤ u.offset ∧ ∀ c ∈ Text.slice source t.stop u.offset, isWhiteSpace c

/-- The kinds of the tokens of a directive. The body of a comment is one text, if there is any; a
variable or a tag holds lexemes. -/
def Directive.Bracketed (dir : Directive) : Prop :=
  dir.opening.kind = .opener dir.delim ∧ dir.closing.kind = .closer dir.delim ∧
    match dir.delim with
    | .comment => dir.inner = [] ∨ ∃ t, dir.inner = [t] ∧ t.kind = .text
    | _ => ∀ t ∈ dir.inner, t.kind.isLexeme

/-- The closer of a directive stands where its delimiter first occurs behind the opener. -/
def Directive.ClosesFirst (source : Text) (dir : Directive) : Prop :=
  ∃ before body after, source = before ++ body ++ dir.delim.closer ++ after ∧
    Text.byteSize before = dir.opening.stop ∧ dir.closing.offset = dir.opening.stop + Text.byteSize body ∧
    ∀ x y, body ++ dir.delim.closer ++ after = x ++ dir.delim.closer ++ y → body.length ≤ x.length

/-- No directive opens in a text, and a directive is bracketed and leaves out nothing but white
space, a comment not even that. -/
def Block.WellFormed (source : Text) : Block → Prop
  | .text t => t.kind = .text ∧ ∀ d : Delim, ¬d.opener <:+: t.text
  | .directive dir => dir.Bracketed ∧ dir.ClosesFirst source ∧
      dir.tokens.IsChain (if dir.delim = .comment then Token.Touches else Token.Spaced source)

/-- Two blocks side by side touch, and are not both plain text. -/
def Block.Meets (a b : Block) : Prop := a.stop = b.start ∧ ¬(a.isText ∧ b.isText)

/-- Tokens that lose nothing of a source. -/
structure Lossless (source : Text) (ts : List Token) : Prop where
  nonempty : ∀ t ∈ ts, t.text ≠ []
  stands : ∀ t ∈ ts, t.StandsIn source
  slice : ∀ t ∈ ts, Text.slice source t.offset t.stop = t.text
  ordered : ts.Pairwise fun t u => t.stop ≤ u.offset
  first : ∀ t ∈ ts.head?, t.offset = 0
  last : ∀ t ∈ ts.getLast?, t.stop = Text.byteSize source
  empty : ts = [] ↔ source = []

/-- Tokens that come in blocks, one right behind the other. -/
structure WellBracketed (source : Text) (ts : List Token) : Prop where
  tokens : (Token.blocks ts).flatMap Block.tokens = ts
  blocks : ∀ b ∈ Token.blocks ts, b.WellFormed source
  meet : (Token.blocks ts).IsChain Block.Meets

/-! ## Dividing tokens -/

section
variable {t opening closing : Token} {d : Delim} {inner ts : List Token}

theorem Token.blocks_text (h : ∀ d, t.kind ≠ .opener d) : Token.blocks (t :: ts) = .text t :: Token.blocks ts := by
  rw [Token.blocks]
  split
  · rename_i d hd
    exact (h d hd).elim
  · rfl

theorem Token.blocks_directive (hopening : opening.kind = .opener d) (hclosing : closing.kind = .closer d)
    (hinner : Unclosed d inner) : Token.blocks (opening :: (inner ++ closing :: ts)) =
      .directive ⟨d, opening, inner, closing⟩ :: Token.blocks ts := by
  obtain ⟨htake, hdrop⟩ := takeWhile_append_of_ends (p := fun u : Token => u.kind != .closer d) (w := inner)
    (by simpa [Unclosed] using hinner) (closing :: ts) (by simp [hclosing])
  rw [Token.blocks]
  split
  · rename_i d' hd
    cases hopening.symm.trans hd
    split
    · rename_i hnil
      rw [hdrop] at hnil
      cases hnil
    · rename_i closing' rest hcons
      rw [hdrop] at hcons
      cases hcons
      rw [htake]
  · rename_i hne
    exact (hne d hopening).elim

end

/-! ## Variables and tags -/

section
variable {opening closing : Token} {d : Delim} {inner ts : List Token}

@[simp] theorem Token.directives_nil : Token.directives [] = [] := by simp [Token.directives, Token.blocks]

theorem Token.directives_text_cons {raw : Text} {o : Nat} :
    Token.directives (⟨.text, raw, o⟩ :: ts) = Token.directives ts := by
  rw [Token.directives, Token.blocks_text (by simp), List.filterMap_cons_none rfl, Token.directives]

theorem Token.directives_comment_cons (hopening : opening.kind = .opener .comment)
    (hclosing : closing.kind = .closer .comment) (hinner : Unclosed .comment inner) :
    Token.directives (opening :: (inner ++ closing :: ts)) = Token.directives ts := by
  rw [Token.directives, Token.blocks_directive hopening hclosing hinner, List.filterMap_cons_none rfl,
    Token.directives]

theorem Token.directives_markup_cons (hd : d ≠ .comment) (hopening : opening.kind = .opener d)
    (hclosing : closing.kind = .closer d) (hinner : Unclosed d inner) :
    Token.directives (opening :: (inner ++ closing :: ts)) =
      ⟨d, opening, inner, closing⟩ :: Token.directives ts := by
  have hmarkup : (Block.directive ⟨d, opening, inner, closing⟩).markup? = some ⟨d, opening, inner, closing⟩ :=
    if_neg hd
  rw [Token.directives, Token.blocks_directive hopening hclosing hinner, List.filterMap_cons_some hmarkup,
    Token.directives]

end

theorem Block.head?_tokens (b : Block) : ∃ t, b.tokens.head? = some t ∧ t.offset = b.start := by
  cases b <;> exact ⟨_, rfl, rfl⟩

theorem Block.getLast?_tokens (b : Block) : ∃ t, b.tokens.getLast? = some t ∧ t.stop = b.stop := by
  cases b with
  | text t => exact ⟨t, rfl, rfl⟩
  | directive dir =>
    refine ⟨dir.closing, ?_, rfl⟩
    rw [Block.tokens, Directive.tokens, ← List.cons_append, List.getLast?_concat]

/-! ## Lexemes -/

section
variable {source after : Text}

/-- A piece of a source is what stands between its byte places. -/
theorem slice_of_eq {before piece : Text} {start stop : Nat} (hsource : source = before ++ piece ++ after)
    (hstart : Text.byteSize before = start) (hstop : start + Text.byteSize piece = stop) :
    Text.slice source start stop = piece := by
  subst hstart hstop
  rw [hsource, Text.slice_append_append]

variable {b : Bool} {offset : Nat} {body : Text} {ts : List Token}

theorem Lexes.isLexeme (h : Lexes b offset body ts) : ∀ t ∈ ts, t.kind.isLexeme := by
  induction h with
  | blank => simp
  | lexeme _ _ hread _ ih =>
    refine List.forall_mem_cons.2 ⟨?_, ih⟩
    have hfits := Lexeme.fits hread
    revert hfits
    cases Lexeme.kind _ <;> first | exact fun _ => rfl | exact False.elim

/-- Every lexeme stands in the source, and is not empty. -/
theorem Lexes.stands (h : Lexes b offset body ts) (before : Text) (hsource : source = before ++ body ++ after)
    (hsize : Text.byteSize before = offset) : ∀ t ∈ ts, t.text ≠ [] ∧ t.StandsIn source := by
  induction h generalizing before with
  | blank => simp
  | @lexeme b offset gap text l ts hgap hhead hread hmore ih =>
    have htext := Lexeme.text_append_rest hread
    rw [← htext] at hsource
    refine List.forall_mem_cons.2 ⟨⟨Lexeme.text_ne_nil hread, before ++ gap, l.rest ++ after, ?_, ?_⟩, ?_⟩
    · simp [hsource]
    · simp [hsize]
    · exact ih (before ++ gap ++ l.text) (by simp [hsource]) (by simp [hsize, Nat.add_assoc])

/-- From the opener to the closer, only white space is left out. -/
theorem Lexes.spaced (h : Lexes b offset body ts) (before : Text) (hsource : source = before ++ body ++ after)
    (hsize : Text.byteSize before = offset) {opening closing : Token} (hopening : opening.stop = offset)
    (hclosing : closing.offset = offset + Text.byteSize body) :
    (opening :: (ts ++ [closing])).IsChain (Token.Spaced source) := by
  -- what a lexeme leaves out stands before it, so each step settles the gap between it and the last
  induction h generalizing before opening with
  | @blank b offset gap hgap =>
    refine List.isChain_pair.2 ⟨by omega, ?_⟩
    rw [slice_of_eq hsource (hsize.trans hopening.symm) (by omega)]
    exact hgap
  | @lexeme b offset gap text l ts hgap hhead hread hmore ih =>
    have htext := Lexeme.text_append_rest hread
    rw [← htext] at hsource hclosing
    have hgaps : source = before ++ gap ++ (l.text ++ l.rest ++ after) := by simp [hsource]
    refine List.isChain_cons_cons.2 ⟨⟨by simp only; omega, ?_⟩, ?_⟩
    · rw [slice_of_eq hgaps (hsize.trans hopening.symm) (by simp only; omega)]
      exact hgap
    · refine ih (before ++ gap ++ l.text) (by simp [hsource]) (by simp [hsize, Nat.add_assoc]) rfl ?_
      simp only [Text.byteSize_append] at hclosing ⊢
      omega

end

theorem Token.StandsIn.stop_le {source : Text} {t : Token} (h : t.StandsIn source) :
    t.stop ≤ Text.byteSize source := by
  obtain ⟨before, after, rfl, hsize⟩ := h
  simp only [Token.stop, Text.byteSize_append]
  omega

/-! ## Texts and closers -/

theorem Delim.ofMark?_mark (d : Delim) : ofMark? d.mark.1 = some d := by cases d <;> rfl

theorem Delim.Unopened.not_infix {text : Text} (h : Delim.Unopened text) (d : Delim) : ¬d.opener <:+: text := by
  intro hinfix
  have hpair : Delim.Unopened d.opener := List.IsChain.infix h hinfix
  simp [Delim.Unopened, Delim.opener, Delim.ofMark?_mark] at hpair

/-- A closing delimiter that nothing closes before is the first. -/
theorem Delim.Closes.first {d : Delim} {body after x y : Text} (h : d.Closes body)
    (heq : body ++ d.closer ++ after = x ++ d.closer ++ y) : body.length ≤ x.length := by
  by_contra hlt
  -- an earlier one would lie in the body and the first character of the delimiter behind it
  have hfront : x ++ d.closer <+: body ++ d.closer ++ after := heq ▸ List.prefix_append _ _
  have hshort : body ++ [d.mark.2] <+: body ++ d.closer ++ after := ⟨'}' :: after, by simp [Delim.closer]⟩
  have hinside : x ++ d.closer <+: body ++ [d.mark.2] :=
    List.prefix_of_prefix_length_le hfront hshort (by simp; omega)
  have habsent : d.Absent d.closer := List.IsChain.infix h ((List.infix_append' x d.closer []).trans
    (by simpa using hinside.isInfix))
  simp [Delim.Absent, Delim.closer] at habsent

/-! ## Scanned tokens -/

section
variable {source text : Text} {offset : Nat} {ts : List Token}

theorem Inside.stands {d : Delim} {b : Bool} {body : Text} {inner : List Token}
    (h : Inside d b offset body inner) (before after : Text) (hsource : source = before ++ body ++ after)
    (hsize : Text.byteSize before = offset) : ∀ t ∈ inner, t.text ≠ [] ∧ t.StandsIn source := by
  cases d with
  | comment =>
    simp only [Inside] at h
    subst h
    split
    · simp
    · rename_i hne
      simpa using ⟨hne, before, after, hsource, hsize⟩
  | var | tag => exact Lexes.stands h before hsource hsize

theorem Scans.stands (h : Scans offset text ts) (before : Text) (hsource : source = before ++ text)
    (hsize : Text.byteSize before = offset) : ∀ t ∈ ts, t.text ≠ [] ∧ t.StandsIn source := by
  induction h generalizing before with
  | nil => simp
  | @text offset raw rest ts hne hplain hmore ih =>
    refine List.forall_mem_cons.2 ⟨⟨hne, before, rest, by simp [hsource], hsize⟩, ?_⟩
    exact ih (before ++ raw) (by simp [hsource]) (by simp [hsize])
  | @directive offset d body rest inner ts hcloses hinside hmore ih =>
    have hparts : source = before ++ d.opener ++ body ++ d.closer ++ rest := by simp [hsource, Delim.enclose]
    refine List.forall_mem_cons.2 ⟨?_, ?_⟩
    · exact ⟨by simp [Delim.opener], before, body ++ d.closer ++ rest, by simp [hparts], hsize⟩
    refine List.forall_mem_append.2 ⟨?_, List.forall_mem_cons.2 ⟨?_, ?_⟩⟩
    · exact hinside.stands (before ++ d.opener) (d.closer ++ rest) (by simp [hparts]) (by simp [hsize])
    · exact ⟨by simp [Delim.closer], before ++ d.opener ++ body, rest, hparts, by simp [hsize, Nat.add_assoc]⟩
    · exact ih (before ++ d.opener ++ body ++ d.closer) hparts (by simp [hsize, Nat.add_assoc])

theorem Scans.eq_nil_iff (h : Scans offset text ts) : ts = [] ↔ text = [] := by
  cases h with
  | nil => simp
  | text hne => simp [hne]
  | directive => simp [Delim.enclose, Delim.opener]

theorem Scans.offset_head (h : Scans offset text ts) : ∀ t ∈ ts.head?, t.offset = offset := by
  cases h <;> simp

theorem Scans.stop_getLast (h : Scans offset text ts) :
    ∀ t ∈ ts.getLast?, t.stop = offset + Text.byteSize text := by
  induction h with
  | nil => simp
  | @text offset raw rest ts hne hplain hmore ih =>
    intro t ht
    cases ts with
    | nil =>
      cases ht
      simp [Token.stop, hmore.eq_nil_iff.1 rfl]
    | cons u ts =>
      rw [List.getLast?_cons_cons] at ht
      simp [ih t ht, Nat.add_assoc]
  | @directive offset d body rest inner ts hcloses hinside hmore ih =>
    intro t ht
    rw [← List.cons_append, List.getLast?_append] at ht
    cases ts with
    | nil =>
      cases ht
      simp [Token.stop, hmore.eq_nil_iff.1 rfl, Delim.byteSize_enclose, Nat.add_assoc]
    | cons u ts =>
      rw [List.getLast?_cons_cons] at ht
      have hlast : (u :: ts).getLast? = some t := by
        rw [List.getLast?_cons] at ht ⊢
        simpa using ht
      simp [ih t hlast, Delim.byteSize_enclose, Nat.add_assoc]

/-- The blocks of a directive and of what stands behind it. -/
theorem Token.blocks_enclosed {d : Delim} {inner : List Token} {opening closing : Text} {o p : Nat} {body : Text}
    (h : Inside d false offset body inner) :
    Token.blocks (⟨.opener d, opening, o⟩ :: (inner ++ ⟨.closer d, closing, p⟩ :: ts)) =
      .directive ⟨d, ⟨.opener d, opening, o⟩, inner, ⟨.closer d, closing, p⟩⟩ :: Token.blocks ts :=
  Token.blocks_directive rfl rfl h.unclosed

theorem Scans.flatMap_blocks (h : Scans offset text ts) : (Token.blocks ts).flatMap Block.tokens = ts := by
  induction h with
  | nil => rw [Token.blocks]; rfl
  | text _ _ _ ih => rw [Token.blocks_text (by simp), List.flatMap_cons, ih]; rfl
  | directive _ hinside _ ih =>
    rw [Token.blocks_enclosed hinside, List.flatMap_cons, ih]
    simp [Block.tokens, Directive.tokens]

theorem Inside.bracketed {d : Delim} {body : Text} {inner : List Token} (h : Inside d false offset body inner)
    (opening closing : Text) (o p : Nat) :
    Directive.Bracketed ⟨d, ⟨.opener d, opening, o⟩, inner, ⟨.closer d, closing, p⟩⟩ := by
  refine ⟨rfl, rfl, ?_⟩
  cases d with
  | comment =>
    simp only [Inside] at h
    subst h
    by_cases hbody : body = [] <;> simp [hbody]
  | var | tag => exact Lexes.isLexeme h

theorem Inside.chain {d : Delim} {before after body : Text} {inner : List Token}
    (h : Inside d false (offset + 2) body inner)
    (hsource : source = before ++ d.opener ++ body ++ after) (hsize : Text.byteSize before = offset) :
    (⟨.opener d, d.opener, offset⟩ :: (inner ++ [⟨.closer d, d.closer, offset + 2 + Text.byteSize body⟩])).IsChain
      (if d = .comment then Token.Touches else Token.Spaced source) := by
  cases d with
  | comment =>
    simp only [Inside] at h
    subst h
    rw [if_pos rfl]
    split <;> simp_all [Token.Touches, Token.stop]
  | var | tag =>
    rw [if_neg (by simp)]
    exact Lexes.spaced h _ hsource (by simp [hsize]) (by simp [Token.stop]) rfl

/-- A block where the scanner finds it: a text in which nothing opens, or a directive that nothing inside
it closes, with its tokens at their places. -/
inductive Block.Placed (source : Text) : Block → Prop
  | text {t : Token} (hkind : t.kind = .text) (hunopened : Delim.Unopened t.text) : Placed source (.text t)
  | directive {d : Delim} {before body after : Text} {inner : List Token}
    (hsource : source = before ++ d.enclose body ++ after) (hcloses : d.Closes body)
    (hinside : Inside d false (Text.byteSize before + 2) body inner) :
    Placed source (.directive ⟨d, ⟨.opener d, d.opener, Text.byteSize before⟩, inner,
      ⟨.closer d, d.closer, Text.byteSize before + 2 + Text.byteSize body⟩⟩)

theorem Scans.placed (h : Scans offset text ts) (before : Text) (hsource : source = before ++ text)
    (hsize : Text.byteSize before = offset) : ∀ b ∈ Token.blocks ts, b.Placed source := by
  induction h generalizing before with
  | nil => rw [Token.blocks]; simp
  | @text offset raw rest ts hne hplain hmore ih =>
    rw [Token.blocks_text (by simp)]
    refine List.forall_mem_cons.2 ⟨.text rfl (List.isChain_append.1 hplain.1).1, ?_⟩
    exact ih (before ++ raw) (by simp [hsource]) (by simp [hsize])
  | @directive offset d body rest inner ts hcloses hinside hmore ih =>
    subst hsize
    have hparts : source = before ++ d.enclose body ++ rest := by simp [hsource]
    rw [Token.blocks_enclosed hinside]
    refine List.forall_mem_cons.2 ⟨.directive hparts hcloses hinside, ?_⟩
    exact ih (before ++ d.enclose body) hparts (by simp [Delim.byteSize_enclose, Nat.add_assoc])

theorem Block.Placed.wellFormed {b : Block} (h : b.Placed source) : b.WellFormed source := by
  cases h with
  | text hkind hunopened => exact ⟨hkind, hunopened.not_infix⟩
  | @directive d before body after inner hsource hcloses hinside =>
    have hparts : source = before ++ d.opener ++ body ++ (d.closer ++ after) := by simp [hsource, Delim.enclose]
    refine ⟨hinside.bracketed _ _ _ _, ?_, hinside.chain hparts rfl⟩
    refine ⟨before ++ d.opener, body, after, by simp [hparts], ?_, ?_, fun x y => hcloses.first⟩
    · simp [Token.stop]
    · simp [Token.stop]

/-- The first block starts with the text, and is plain text only if no directive opens there. -/
theorem Scans.head_blocks (h : Scans offset text ts) :
    ∀ b ∈ (Token.blocks ts).head?, b.start = offset ∧ (b.isText → ¬Delim.Opens text) := by
  cases h with
  | nil => rw [Token.blocks]; simp
  | @text _ raw rest ts hne hplain hmore =>
    rw [Token.blocks_text (by simp)]
    rintro _ ⟨⟩
    obtain ⟨c, tail, rfl⟩ := List.exists_cons_of_ne_nil hne
    exact ⟨rfl, fun _ => (Delim.plain_cons.1 hplain).1⟩
  | directive _ hinside =>
    rw [Token.blocks_enclosed hinside]
    rintro _ ⟨⟩
    exact ⟨rfl, by simp [Block.isText]⟩

theorem Scans.meet (h : Scans offset text ts) : (Token.blocks ts).IsChain Block.Meets := by
  induction h with
  | nil => rw [Token.blocks]; exact List.isChain_nil
  | @text offset raw rest ts hne hplain hmore ih =>
    rw [Token.blocks_text (by simp)]
    refine List.isChain_cons.2 ⟨fun b hb => ?_, ih⟩
    obtain ⟨hstart, hopens⟩ := hmore.head_blocks b hb
    refine ⟨hstart.symm, fun hboth => ?_⟩
    -- behind a plain text comes a directive or nothing
    rcases hplain.2 with rfl | hopen
    · rw [hmore.eq_nil_iff.2 rfl, Token.blocks] at hb
      cases hb
    · exact hopens hboth.2 hopen
  | @directive offset d body rest inner ts hcloses hinside hmore ih =>
    rw [Token.blocks_enclosed hinside]
    refine List.isChain_cons.2 ⟨fun b hb => ⟨?_, by simp [Block.isText]⟩, ih⟩
    rw [(hmore.head_blocks b hb).1]
    simp [Block.stop, Directive.stop, Token.stop]

end

/-! ## The whole source -/

theorem Block.WellFormed.ordered {source : Text} {b : Block} (h : b.WellFormed source) :
    b.tokens.IsChain fun t u => t.stop ≤ u.offset := by
  cases b with
  | text t => exact List.isChain_singleton t
  | directive dir =>
    refine List.IsChain.imp (fun t u htu => ?_) h.2.2
    split at htu
    · exact Nat.le_of_eq htu
    · exact htu.1

theorem WellBracketed.ordered {source : Text} {ts : List Token} (h : WellBracketed source ts) :
    ts.Pairwise fun t u => t.stop ≤ u.offset := by
  have hne : [] ∉ (Token.blocks ts).map Block.tokens := by
    rintro hnil
    obtain ⟨b, -, hb⟩ := List.mem_map.1 hnil
    obtain ⟨t, ht, -⟩ := b.head?_tokens
    rw [hb] at ht
    cases ht
  have hchain : ts.IsChain fun t u => t.stop ≤ u.offset := by
    rw [← h.tokens, List.flatMap, List.isChain_flatten hne, List.isChain_map]
    refine ⟨?_, h.meet.imp fun a b hmeet x hx y hy => ?_⟩
    · intro l hl
      obtain ⟨b, hb, rfl⟩ := List.mem_map.1 hl
      exact (h.blocks b hb).ordered
    · obtain ⟨t, ht, hstop⟩ := a.getLast?_tokens
      obtain ⟨u, hu, hstart⟩ := b.head?_tokens
      cases ht.symm.trans hx
      cases hu.symm.trans hy
      rw [hstop, hstart]
      exact Nat.le_of_eq hmeet.1
  have htrans : IsTrans Token fun t u => t.stop ≤ u.offset := by
    refine ⟨fun t u v htu huv => ?_⟩
    have hu : u.offset ≤ u.stop := Nat.le_add_right _ _
    omega
  exact hchain.pairwise

theorem Scans.wellBracketed {source : Text} {ts : List Token} (h : Scans 0 source ts) : WellBracketed source ts :=
  ⟨h.flatMap_blocks, fun b hb => (h.placed [] rfl rfl b hb).wellFormed, h.meet⟩

/-- **Scanning loses nothing of a source and brackets its directives.** -/
theorem Token.scan_in_blocks {source : Text} {ts : List Token} (h : Token.scan source = .ok ts) :
    Lossless source ts ∧ WellBracketed source ts := by
  have hscans := Token.scan_eq_ok_iff.1 h
  have hstands := hscans.stands [] rfl rfl
  refine ⟨⟨fun t ht => (hstands t ht).1, fun t ht => (hstands t ht).2, fun t ht => ?_, hscans.wellBracketed.ordered,
    hscans.offset_head, ?_, hscans.eq_nil_iff⟩, hscans.wellBracketed⟩
  · obtain ⟨-, before, after, hsource, hsize⟩ := hstands t ht
    exact slice_of_eq hsource hsize rfl
  · simpa using hscans.stop_getLast

/-- A letter of two bytes, a lone brace, a comment around an opener, and a variable with a closing brace
right behind it: the blanks of the variable are all that no token takes. -/
theorem Token.scan_in_blocks_braces : ∃ source ts,
    (source = "é\x7b ".toList ++ Delim.comment.enclose "\x7b\x7b".toList ++
      Delim.var.enclose " a.0 : '%\x7d' ".toList ++ "\x7d".toList ∧
    Token.scan source = .ok ts ∧
    ts.map (fun t => (t.offset, t.stop)) =
      [(0, 4), (4, 6), (6, 8), (8, 10), (10, 12), (13, 14), (14, 15), (15, 16), (17, 18), (19, 23), (24, 26),
        (26, 27)]) ∧
    Lossless source ts ∧ WellBracketed source ts := by
  refine ⟨_, (exists_ok_of_toOption ?_).imp fun ts h => ⟨⟨rfl, h⟩, Token.scan_in_blocks h.1⟩⟩
  decide +kernel

end MailDialect
