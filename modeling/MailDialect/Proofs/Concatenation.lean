import MailDialect.Proofs.Relocation
import MailDialect.Proofs.Bracketing
import MailDialect.Proofs.Stability

/-!
# One text behind another

A text that can be brought over leaves nothing open behind it, so what stands behind it is brought
over as if it stood alone, further on. Only plain text runs on over the seam, and a brace at the end
of the first text must not make an opener with the second. Main statement: `migrate_append`.
-/

namespace MailDialect

open Grammar Reader Unicode

/-! ## Scanning on -/

/-- The token of a plain text, if there is any text. -/
def Token.plain (offset : Nat) (raw : Text) : List Token := if raw = [] then [] else [⟨.text, raw, offset⟩]

theorem Token.plain_of_ne {offset : Nat} {raw : Text} (h : raw ≠ []) :
    Token.plain offset raw = [⟨.text, raw, offset⟩] :=
  if_neg h

theorem Token.plain_nil (offset : Nat) : Token.plain offset [] = [] := rfl

namespace Scanner

/-- The first scanner yields the tokens `ts` and then all that the second yields. -/
def Reaches (s : Scanner) (ts : List Token) (next : Scanner) : Prop :=
  s.drain = (ts ++ next.drain.1, next.drain.2)

section
variable {s next last : Scanner} {t : Token} {ts us : List Token}

theorem Reaches.refl (s : Scanner) : s.Reaches [] s := rfl

theorem Reaches.trans (h : s.Reaches ts next) (h' : next.Reaches us last) : s.Reaches (ts ++ us) last := by
  rw [Reaches, h, h', List.append_assoc]

theorem drain_eq (s : Scanner) : s.drain = match s.step with
    | .finished => ([], none)
    | .failed error _ => ([], some error)
    | .token t next => (t :: next.drain.1, next.drain.2) := by
  rw [drain]
  split
  · rename_i hstep
    rw [hstep]
  · rename_i hstep
    rw [hstep]
  · rename_i hstep
    rw [hstep]

theorem Reaches.step (h : s.step = .token t next) (h' : next.Reaches us last) : s.Reaches (t :: us) last := by
  rw [Reaches, drain_eq, h]
  dsimp only
  rw [h']
  rfl

end

section
variable {d : Delim} {b : Bool} {offset : Nat} {after : Text}

/-- The scanner reads the lexemes of a variable or a tag up to its closer. -/
theorem reaches_lexes {body : Text} {inner : List Token} (hd : d ≠ .comment) (h : Lexes b offset body inner) :
    Reaches ⟨.directive d body after, offset, b⟩
      (inner ++ [⟨.closer d, d.closer, offset + Text.byteSize body⟩])
      ⟨.markup after, offset + Text.byteSize body + 2, false⟩ := by
  have hstep : ∀ {body : Text} {offset : Nat} {b : Bool}, step ⟨.directive d body after, offset, b⟩ =
      stepDirective ⟨.directive d body after, offset, b⟩ d body after := by
    cases d <;> first | exact fun {_ _ _} => rfl | exact (hd rfl).elim
  induction h with
  | @blank b offset gap hgap =>
    have hdrop := List.dropWhile_eq_nil_iff.2 hgap
    have htake : gap.takeWhile isWhiteSpace = gap := by
      simpa [hdrop] using List.takeWhile_append_dropWhile (p := isWhiteSpace) (l := gap)
    refine Reaches.step ?_ (Reaches.refl _)
    rw [hstep]
    simp only [stepDirective, hdrop, htake, advance, Delim.byteSize_closer]
    rfl
  | @lexeme b offset gap text l ts hgap hhead hread hmore ih =>
    obtain ⟨htake, hdrop⟩ := takeWhile_append_of_ends hgap _ hhead
    have hne : text ≠ [] := by
      rintro rfl
      exact Lexeme.text_ne_nil hread (List.append_eq_nil_iff.1 (Lexeme.text_append_rest hread)).1
    have hsize : offset + Text.byteSize gap + Text.byteSize l.text + Text.byteSize l.rest =
        offset + Text.byteSize (gap ++ text) := by
      rw [← Lexeme.text_append_rest hread]
      simp [Nat.add_assoc]
    rw [hsize] at ih
    refine Reaches.step ?_ ih
    rw [hstep]
    obtain ⟨c, tail, rfl⟩ := List.exists_cons_of_ne_nil hne
    simp only [stepDirective, hdrop, htake, hread, advance]

theorem reaches_inside {body : Text} {inner : List Token} (h : Inside d false offset body inner) :
    Reaches ⟨.directive d body after, offset, false⟩
      (inner ++ [⟨.closer d, d.closer, offset + Text.byteSize body⟩])
      ⟨.markup after, offset + Text.byteSize body + 2, false⟩ := by
  cases d with
  | comment =>
    simp only [Inside] at h
    subst h
    cases body with
    | nil => exact Reaches.step rfl (Reaches.refl _)
    | cons c body => exact Reaches.step rfl (Reaches.step rfl (Reaches.refl _))
  | var | tag => exact reaches_lexes (by simp) h

theorem reaches_directive {body : Text} {inner : List Token} (hcloses : d.Closes body)
    (h : Inside d false (offset + 2) body inner) :
    Reaches ⟨.markup (d.enclose body ++ after), offset, false⟩
      (⟨.opener d, d.opener, offset⟩ :: (inner ++ [⟨.closer d, d.closer, offset + 2 + Text.byteSize body⟩]))
      ⟨.markup after, offset + 2 + Text.byteSize body + 2, false⟩ := by
  refine Reaches.step ?_ (reaches_inside h)
  refine (stepMarkup_enclose ⟨.markup (d.enclose body ++ after), offset, false⟩ after hcloses).trans ?_
  rw [advance, Delim.byteSize_opener]
  rfl

theorem reaches_plain {raw : Text} (h : Delim.Plain raw after) :
    Reaches ⟨.markup (raw ++ after), offset, false⟩ (Token.plain offset raw)
      ⟨.markup after, offset + Text.byteSize raw, false⟩ := by
  by_cases hne : raw = []
  · subst hne
    exact Reaches.refl _
  · rw [Token.plain_of_ne hne]
    exact Reaches.step (stepMarkup_of_plain ⟨.markup (raw ++ after), offset, false⟩ hne h) (Reaches.refl _)

end

/-! ## Scanning further on -/

/-- A scanner `k` bytes further on. -/
def shift (k : Nat) (s : Scanner) : Scanner := { s with offset := s.offset + k }

def Step.shift (k : Nat) : Step → Step
  | .finished => .finished
  | .failed error next => .failed (error.shift k) (next.shift k)
  | .token t next => .token (t.shift k) (next.shift k)

section
variable (k : Nat) (s : Scanner)

theorem advance_shift (kind : Token.Kind) (text : Text) (region : Region) :
    (s.shift k).advance kind text region = (s.advance kind text region).shift k := by
  have hstop : s.offset + k + Text.byteSize text = s.offset + Text.byteSize text + k := by omega
  simp only [advance, Step.shift, shift, Token.shift, hstop]

theorem stepMarkup_shift (rest : Text) : (s.shift k).stepMarkup rest = (s.stepMarkup rest).shift k := by
  unfold stepMarkup
  split
  · rfl
  · split
    · split
      · exact s.advance_shift k _ _ _
      · rfl
    · exact s.advance_shift k _ _ _

theorem stepComment_shift (body after : Text) :
    (s.shift k).stepComment body after = (s.stepComment body after).shift k := by
  unfold stepComment
  split
  · exact s.advance_shift k _ _ _
  · exact s.advance_shift k _ _ _

theorem stepDirective_shift (d : Delim) (body after : Text) :
    (s.shift k).stepDirective d body after = (s.stepDirective d body after).shift k := by
  have hgap : ∀ n, s.offset + k + n = s.offset + n + k := fun n => by omega
  simp only [stepDirective, shift, hgap]
  split
  · exact advance_shift k ⟨_, s.offset + _, _⟩ _ _ _
  · split
    · exact advance_shift k ⟨_, s.offset + _, _⟩ _ _ _
    · rename_i fault _
      have hfault : ∀ n m, s.offset + n + k + m = s.offset + n + m + k := fun n m => by omega
      simp only [Step.shift, shift, ScanError.shift, hfault]

/-- The same text is scanned in the same way further on. -/
theorem step_shift : (s.shift k).step = s.step.shift k := by
  obtain ⟨region, offset, b⟩ := s
  match region with
  | .markup rest => exact stepMarkup_shift k _ rest
  | .directive .comment body after => exact stepComment_shift k _ body after
  | .directive .var body after => exact stepDirective_shift k _ .var body after
  | .directive .tag body after => exact stepDirective_shift k _ .tag body after

theorem drain_shift :
    (s.shift k).drain = (s.drain.1.map (Token.shift k), s.drain.2.map (ScanError.shift k)) := by
  fun_induction drain s with
  | case1 s hstep => rw [drain_eq, step_shift, hstep]; rfl
  | case2 s error next hstep => rw [drain_eq, step_shift, hstep]; rfl
  | case3 s t next hstep more ih =>
    rw [drain_eq, step_shift, hstep, Step.shift]
    dsimp only
    rw [ih]
    rfl

end

end Scanner

/-! ## The seam -/

/-- A text that opens nothing can stand before plain text, unless a brace at its end opens something there. -/
theorem Delim.plain_append {b c d : Text} (hb : Delim.Unopened b) (hplain : Delim.Plain c d)
    (hseam : b.getLast? = some '{' → ∀ m ∈ (c ++ d).head?, Delim.ofMark? m = none) : Delim.Plain (b ++ c) d := by
  refine ⟨?_, hplain.2⟩
  rw [List.append_assoc]
  refine List.isChain_append.2 ⟨hb, hplain.1, ?_⟩
  rintro x hx y hy ⟨rfl, hmark⟩
  rw [Delim.head?_append_take] at hy
  rw [hseam hx y hy] at hmark
  cases hmark

/-- Plain text before an opener stays so when more text comes. -/
theorem Delim.Plain.more {raw rest : Text} (h : Delim.Plain raw rest) (hopens : Delim.Opens rest) (more : Text) :
    Delim.Plain raw (rest ++ more) := by
  cases rest with
  | nil => cases hopens
  | cons c rest =>
    obtain ⟨hc, m, hm, hmark⟩ := Delim.opens_cons.1 hopens
    refine ⟨h.1, .inr (Delim.opens_cons.2 ⟨hc, m, ?_, hmark⟩)⟩
    obtain ⟨tail, rfl⟩ := List.head?_eq_some_iff.1 hm
    rfl

/-- Behind its last directive a scanned text is plain, and the scanner comes to that plain text whatever
stands behind it. -/
theorem Scans.reaches {offset : Nat} {text : Text} {ts : List Token} (h : Scans offset text ts) :
    ∃ front last us, text = front ++ last ∧ ts = us ++ Token.plain (offset + Text.byteSize front) last ∧
      Delim.Unopened last ∧ ∀ more, Scanner.Reaches ⟨.markup (text ++ more), offset, false⟩ us
        ⟨.markup (last ++ more), offset + Text.byteSize front, false⟩ := by
  induction h with
  | nil => exact ⟨[], [], [], rfl, rfl, List.isChain_nil, fun more => Scanner.Reaches.refl _⟩
  | @text offset raw rest ts hne hplain hmore ih =>
    rcases hplain.2 with rfl | hopens
    · -- the text is the last of all, and whatever comes behind it may belong to it
      have hts := hmore.eq_nil_iff.2 rfl
      subst hts
      refine ⟨[], raw, [], by simp, (Token.plain_of_ne hne).symm, (List.isChain_append.1 hplain.1).1, fun more => ?_⟩
      simpa using Scanner.Reaches.refl _
    · obtain ⟨front, last, us, rfl, rfl, hlast, hreaches⟩ := ih
      refine ⟨raw ++ front, last, ⟨.text, raw, offset⟩ :: us, by simp, by simp [Nat.add_assoc], hlast, fun more => ?_⟩
      have hfirst := (Scanner.reaches_plain (hplain.more hopens more)).trans (hreaches more)
      rw [Token.plain_of_ne hne] at hfirst
      simpa [Nat.add_assoc] using hfirst
  | @directive offset d body rest inner ts hcloses hinside hmore ih =>
    obtain ⟨front, last, us, rfl, rfl, hlast, hreaches⟩ := ih
    have hsize : offset + 2 + Text.byteSize body + 2 + Text.byteSize front =
        offset + Text.byteSize (d.enclose body ++ front) := by
      rw [Text.byteSize_append, Delim.byteSize_enclose]
      omega
    rw [hsize] at hreaches ⊢
    refine ⟨d.enclose body ++ front, last, ⟨.opener d, d.opener, offset⟩ :: (inner ++
      [⟨.closer d, d.closer, offset + 2 + Text.byteSize body⟩]) ++ us, by simp, by simp, hlast, fun more => ?_⟩
    rw [List.append_assoc]
    exact (Scanner.reaches_directive hcloses hinside).trans (hreaches more)

theorem Token.scan_of_reaches {source : Text} {ts : List Token} {next : Scanner}
    (h : (Scanner.start source).Reaches ts next) : Token.scan source =
      match next.drain with
      | (us, none) => .ok (ts ++ us)
      | (_, some error) => .error error := by
  rw [Token.scan, h]
  rcases next.drain with ⟨us, _ | error⟩ <;> rfl

/-- **Scanning two texts in a row.** The tokens of the second come behind those of the first, with the
plain text at the seam in one token; an error of the second is an error further on. -/
theorem Token.scan_append {a b : Text} {ts : List Token} (h : Token.scan a = .ok ts)
    (hseam : a.getLast? = some '{' → ∀ m ∈ b.head?, Delim.ofMark? m = none) :
    ∃ us offset last first, ts = us ++ Token.plain offset last ∧
      match Token.scan b with
      | .error e => Token.scan (a ++ b) = .error (e.shift (Text.byteSize a))
      | .ok bs => ∃ vs, bs = Token.plain 0 first ++ vs ∧ Token.scan (a ++ b) =
          .ok (us ++ Token.plain offset (last ++ first) ++ vs.map (Token.shift (Text.byteSize a))) := by
  obtain ⟨front, last, us, rfl, rfl, hlast, hreaches⟩ := (Token.scan_eq_ok_iff.1 h).reaches
  obtain ⟨hb, hplain⟩ := Delim.untilOpener_eq_iff.1 (Eq.refl (Delim.untilOpener b))
  generalize (Delim.untilOpener b).1 = first at hb hplain
  generalize (Delim.untilOpener b).2 = rest at hb hplain
  subst hb
  have hmeet : Delim.Plain (last ++ first) rest := by
    refine Delim.plain_append hlast hplain fun hbrace => hseam ?_
    rw [List.getLast?_append, hbrace]
    rfl
  have hsecond : (Scanner.start (first ++ rest)).Reaches (Token.plain 0 first)
      ⟨.markup rest, 0 + Text.byteSize first, false⟩ := Scanner.reaches_plain hplain
  have hboth : (Scanner.start (front ++ last ++ (first ++ rest))).Reaches
      (us ++ Token.plain (0 + Text.byteSize front) (last ++ first))
      (Scanner.shift (Text.byteSize (front ++ last)) ⟨.markup rest, 0 + Text.byteSize first, false⟩) := by
    have hplace : Scanner.shift (Text.byteSize (front ++ last)) ⟨.markup rest, 0 + Text.byteSize first, false⟩ =
        ⟨.markup rest, 0 + Text.byteSize front + Text.byteSize (last ++ first), false⟩ := by
      simp only [Scanner.shift, Text.byteSize_append, Scanner.mk.injEq, true_and, and_true]
      omega
    rw [hplace]
    refine (hreaches (first ++ rest)).trans ?_
    rw [← List.append_assoc]
    exact Scanner.reaches_plain hmeet
  refine ⟨us, 0 + Text.byteSize front, last, first, rfl, ?_⟩
  rw [Token.scan_of_reaches hsecond, Token.scan_of_reaches hboth, Scanner.drain_shift]
  rcases (Scanner.drain ⟨.markup rest, 0 + Text.byteSize first, false⟩) with ⟨vs, _ | error⟩
  · exact ⟨vs, rfl, rfl⟩
  · rfl

/-! ## Longer sources -/

theorem Text.takeBytes_append_of_le {n : Nat} {a : Text} (h : n ≤ Text.byteSize a) (b : Text) :
    Text.takeBytes n (a ++ b) = Text.takeBytes n a := by
  induction a generalizing n with
  | nil =>
    obtain rfl : n = 0 := by simpa using h
    cases b <;> rfl
  | cons c a ih =>
    cases n with
    | zero => rfl
    | succ n =>
      rw [Text.byteSize_cons] at h
      rw [List.cons_append, Text.takeBytes, Text.takeBytes, ih (by omega)]

/-- A piece that starts at a token and ends in the source stays when text comes behind the source. -/
theorem Token.StandsIn.slice_append {source : Text} {t : Token} {stop : Nat} (h : t.StandsIn source)
    (hstop : stop ≤ Text.byteSize source) (more : Text) :
    Text.slice (source ++ more) t.offset stop = Text.slice source t.offset stop := by
  obtain ⟨before, after, rfl, hsize⟩ := h
  have hleft : stop - t.offset ≤ Text.byteSize (t.text ++ after) := by
    simp only [Text.byteSize_append] at hstop ⊢
    omega
  rw [List.append_assoc before, List.append_assoc before, Text.slice, Text.slice, ← hsize, Text.dropBytes_append,
    Text.dropBytes_append, hsize]
  exact Text.takeBytes_append_of_le hleft more

/-- What is spelled in one way is spelled in another when every text, comment and directive is. -/
theorem Grammar.Blocks.mono {α : Type} {S S' : Spelling α} {P : α → Prop}
    (htext : ∀ {a raw}, (∀ x ∈ a, P x) → S.text a raw → S'.text a raw)
    (hcomment : ∀ {a raw}, (∀ x ∈ a, P x) → S.comment a raw → S'.comment a raw)
    (hdirective : ∀ {d a head span}, (∀ x ∈ a, P x) → S.directive d a head span → S'.directive d a head span)
    {a : List α} {phrase : Phrase} (h : Blocks S a phrase) (ha : ∀ x ∈ a, P x) : Blocks S' a phrase := by
  induction h with
  | nil => exact .nil
  | cons _ _ ihf ihm =>
    obtain ⟨hf, hm⟩ := List.forall_mem_append.1 ha
    exact .cons (ihf hf) (ihm hm)
  | text h => exact .text (htext ha h)
  | comment h => exact .comment (hcomment ha h)
  | var h => exact .var (hdirective ha h)
  | unsupported h => exact .unsupported (hdirective ha h)
  | endif h => exact .endif (hdirective ha h)
  | ifBlock htag _ _ ihb ihm =>
    obtain ⟨ht, hrest⟩ := List.forall_mem_append.1 ha
    obtain ⟨hb, hm⟩ := List.forall_mem_append.1 hrest
    exact .ifBlock (hdirective ht htag) (ihb hb) (ihm hm)
  | elseif htag _ _ ihb ihm =>
    obtain ⟨ht, hrest⟩ := List.forall_mem_append.1 ha
    obtain ⟨hb, hm⟩ := List.forall_mem_append.1 hrest
    exact .elseif (hdirective ht htag) (ihb hb) (ihm hm)
  | forBlock htag _ hclose ihb =>
    obtain ⟨ht, hrest⟩ := List.forall_mem_append.1 ha
    obtain ⟨hb, hm⟩ := List.forall_mem_append.1 hrest
    exact .forBlock (hdirective ht htag) (ihb hb) (hdirective hm hclose)
  | otherwise htag _ hclose ihb =>
    obtain ⟨ht, hrest⟩ := List.forall_mem_append.1 ha
    obtain ⟨hb, hm⟩ := List.forall_mem_append.1 hrest
    exact .otherwise (hdirective ht htag) (ihb hb) (hdirective hm hclose)

section
variable {source : Text} {ts us : List Token}

/-- Tokens of a source form the same template in a longer source. -/
theorem blocks_append_source {phrase : Phrase} (h : Blocks (tokens source) ts phrase)
    (hstands : ∀ t ∈ ts, t.StandsIn source) (more : Text) : Blocks (tokens (source ++ more)) ts phrase := by
  have hslice : ∀ {opening closing : Token} {body : List Token},
      (∀ t ∈ opening :: (body ++ [closing]), t.StandsIn source) →
      Text.slice source opening.offset closing.stop = Text.slice (source ++ more) opening.offset closing.stop := by
    intro opening closing body hall
    exact ((hall opening (by simp)).slice_append (hall closing (by simp)).stop_le more).symm
  refine h.mono (P := (Token.StandsIn source ·)) ?_ ?_ ?_ hstands
  · exact fun _ h => h
  · rintro a raw ha ⟨opening, body, closing, rfl, hopening, hclosing, hbody, rfl⟩
    exact ⟨opening, body, closing, rfl, hopening, hclosing, hbody, hslice ha⟩
  · rintro d a head span ha ⟨opening, inner, closing, rfl, hopening, hclosing, hhead, rfl⟩
    exact ⟨opening, inner, closing, rfl, hopening, hclosing, hhead, by rw [hslice ha]⟩

/-! ## Texts at the end -/

/-- The last token is a closer. -/
def EndsClosed (ts : List Token) : Prop := ∃ t d, ts.getLast? = some t ∧ t.kind = .closer d

theorem EndsClosed.append (h : EndsClosed us) (ts : List Token) : EndsClosed (ts ++ us) := by
  obtain ⟨t, d, hlast, ht⟩ := h
  exact ⟨t, d, by rw [List.getLast?_append, hlast]; rfl, ht⟩

theorem endsClosed_directive {d : Delim} {head : Head} {span : Span} (h : (tokens source).directive d ts head span) :
    EndsClosed ts := by
  obtain ⟨opening, inner, closing, rfl, -, hclosing, -, -⟩ := h
  exact ⟨closing, d, by rw [← List.cons_append, List.getLast?_concat], hclosing⟩

/-- A node that is no text ends with a closer, and so does what follows a branch. -/
theorem endsClosed_blocks {phrase : Phrase} (h : Blocks (tokens source) ts phrase) :
    match phrase with
    | .node (.text raw) => ∃ o, ts = [⟨.text, raw, o⟩]
    | .nodes _ => True
    | _ => EndsClosed ts := by
  induction h with
  | nil => trivial
  | cons => trivial
  | text h => exact h
  | comment h =>
    obtain ⟨opening, body, closing, rfl, -, hclosing, -⟩ := h
    exact ⟨closing, .comment, by rw [← List.cons_append, List.getLast?_concat], hclosing⟩
  | var h => exact endsClosed_directive h
  | unsupported h => exact endsClosed_directive h
  | endif h => exact endsClosed_directive h
  | ifBlock _ _ _ _ ihm => exact (EndsClosed.append ihm _).append _
  | elseif _ _ _ _ ihm => exact (EndsClosed.append ihm _).append _
  | forBlock _ _ hclose => exact ((endsClosed_directive hclose).append _).append _
  | otherwise _ _ hclose => exact ((endsClosed_directive hclose).append _).append _

theorem node_text_of_endsText {n : Node} {o : Nat} {raw : Text}
    (h : Blocks (tokens source) (us ++ [⟨.text, raw, o⟩]) (.node n)) : us = [] ∧ n = .text raw := by
  have hends := endsClosed_blocks h
  have hopen : ¬EndsClosed (us ++ [(⟨.text, raw, o⟩ : Token)]) := by
    rintro ⟨t, d, hlast, ht⟩
    rw [List.getLast?_concat] at hlast
    cases hlast
    cases ht
  cases n with
  | text raw' =>
    obtain ⟨o', hts⟩ := hends
    rcases List.append_eq_singleton_iff.1 hts with ⟨rfl, hlast⟩ | ⟨-, hlast⟩
    · cases hlast
      exact ⟨rfl, rfl⟩
    · cases hlast
  | _ => exact (hopen hends).elim

theorem isTemplate_nil {t : Template} (h : IsTemplate source [] t) : t = [] := by
  generalize hts : ([] : List Token) = ts at h
  cases t with
  | nil => rfl
  | cons n t =>
    cases h with
    | @cons a b _ _ hfirst hmore =>
      obtain ⟨rfl, rfl⟩ := List.append_eq_nil_iff.1 hts.symm
      have hends := endsClosed_blocks hfirst
      cases n with
      | text raw => obtain ⟨o, hts⟩ := hends; cases hts
      | _ => obtain ⟨t, d, hlast, -⟩ := hends; cases hlast

/-- A text at the end of a template is a node of its own. -/
theorem isTemplate_text {o : Nat} {raw : Text} {t : Template} (h : IsTemplate source (us ++ [⟨.text, raw, o⟩]) t) :
    ∃ t', IsTemplate source us t' ∧ t = t' ++ [.text raw] := by
  induction t generalizing us with
  | nil =>
    generalize hts : us ++ [(⟨.text, raw, o⟩ : Token)] = ts at h
    cases h
    simp at hts
  | cons n t ih =>
    generalize hts : us ++ [(⟨.text, raw, o⟩ : Token)] = ts at h
    cases h with
    | @cons a b _ _ hfirst hmore =>
      rcases List.eq_nil_or_concat b with rfl | ⟨b', last, rfl⟩
      · rw [List.append_nil] at hts
        subst hts
        obtain ⟨rfl, rfl⟩ := node_text_of_endsText hfirst
        exact ⟨[], .nil, by rw [isTemplate_nil hmore]; rfl⟩
      · rw [List.concat_eq_append] at hts hmore
        rw [← List.append_assoc] at hts
        obtain ⟨rfl, hlast⟩ := List.append_inj' hts rfl
        cases hlast
        obtain ⟨t', ht', rfl⟩ := ih hmore
        exact ⟨n :: t', .cons hfirst ht', rfl⟩

end

/-! ## Reading on -/

/-- The nodes of a plain text, if there is any text. -/
def Template.plain (raw : Text) : Template := if raw = [] then [] else [.text raw]

theorem isTemplate_plain {source : Text} {us : List Token} {o : Nat} {raw : Text} {t : Template}
    (h : IsTemplate source (us ++ Token.plain o raw) t) :
    ∃ t', IsTemplate source us t' ∧ t = t' ++ Template.plain raw := by
  by_cases hraw : raw = []
  · subst hraw
    rw [Token.plain_nil, List.append_nil] at h
    exact ⟨t, h, (List.append_nil t).symm⟩
  · rw [Token.plain_of_ne hraw] at h
    rw [Template.plain, if_neg hraw]
    exact isTemplate_text h

theorem Template.print_append (ns : Text) (t u : Template) :
    Template.print ns (t ++ u) = Template.print ns t ++ Template.print ns u := by
  induction t with
  | nil => rfl
  | cons n t ih => rw [List.cons_append, Template.print, Template.print, ih, List.append_assoc]

theorem Template.diagnostics_append (t u : Template) :
    Template.diagnostics (t ++ u) = Template.diagnostics t ++ Template.diagnostics u := by
  induction t with
  | nil => rfl
  | cons n t ih => rw [List.cons_append, Template.diagnostics, Template.diagnostics, ih, List.append_assoc]

theorem Template.rescope_append (f : Scoping) (bound : List Text) (t u : Template) :
    Template.rescope f bound (t ++ u) = Template.rescope f bound t ++ Template.rescope f bound u := by
  induction t with
  | nil => rfl
  | cons n t ih => rw [List.cons_append, Template.rescope, Template.rescope, ih]; rfl

theorem Template.rescope_plain (f : Scoping) (bound : List Text) (raw : Text) :
    Template.rescope f bound (Template.plain raw) = Template.plain raw := by
  unfold Template.plain
  split <;> rfl

theorem Template.print_plain (ns raw : Text) : Template.print ns (Template.plain raw) = raw := by
  unfold Template.plain
  split
  · rename_i hraw
    exact hraw.symm
  · simp [Template.print, Node.print]

theorem Template.diagnostics_plain (raw : Text) : Template.diagnostics (Template.plain raw) = [] := by
  unfold Template.plain
  split <;> rfl

/-- The second reader reads what the first reads and more before it, which is written as `text` and
reported as `ds`, or both fail in the same way. -/
inductive Joins (k : Nat) (ns : Text) {m n : Nat} (text : Text) (ds : List Diagnostic) :
    Outcome (List Node) m → Outcome (List Node) n → Prop
  | ok {t t' : Template} {rest : List Token} {below : rest.length < m}
    {below' : (rest.map (Token.shift k)).length < n}
    (hprint : Template.print ns t' = text ++ Template.print ns (Template.rescope (.lexical ns) [] t))
    (hreport : Template.diagnostics t' =
      ds ++ (Template.diagnostics (Template.rescope (.lexical ns) [] t)).map (Diagnostic.shift k)) :
    Joins k ns text ds (.ok ⟨t, rest, below⟩) (.ok ⟨t', rest.map (Token.shift k), below'⟩)
  | error {e : GrammarError} : Joins k ns text ds (.error e) (.error (e.shift k))

section
variable {k m : Nat} {source ns text : Text} {ds : List Diagnostic} {o : Outcome (List Node) m}

/-- Nothing is read before tokens that stand elsewhere. -/
theorem joins_of_follows {n : Nat} {o' : Outcome (List Node) n}
    (h : Follows k (Env.carryNodes k ⟨source, ns, []⟩) o o') : Joins k ns [] [] o o' := by
  cases h with
  | ok => exact .ok (Template.print_shift k ns _) (Template.diagnostics_shift k _)
  | error => exact .error

theorem Joins.node {env : Env} {ts mid : List Token} {node : Node} (hfinds : Finds env ts node mid)
    (h : Joins k ns text ds o (nodes env mid)) :
    Joins k ns (node.print ns ++ text) (node.diagnostics ++ ds) o (nodes env ts) := by
  obtain ⟨below, hnode⟩ := hfinds
  rw [nodes, hnode]
  change Joins k ns _ _ o (nodes env mid >>= _)
  generalize nodes env mid = o' at h
  cases h with
  | ok hprint hreport =>
    refine .ok ?_ ?_
    · rw [List.append_assoc, ← hprint]; rfl
    · rw [List.append_assoc, ← hreport]; rfl
  | error => exact .error

/-- A whole template before the tokens is read before them. -/
theorem Joins.template {env : Env} {us rest : List Token} {t : Template} (hblocks : IsTemplate env.source us t)
    (hscope : Template.rescope (.lexical env.ns) env.bound t = t) (horderly : Orderly (us ++ rest))
    (h : Joins k ns text ds o (nodes env rest)) :
    Joins k ns (Template.print ns t ++ text) (Template.diagnostics t ++ ds) o (nodes env (us ++ rest)) := by
  induction t generalizing us with
  | nil => cases hblocks; exact h
  | cons n t ih =>
    rw [Template.rescope, List.cons.injEq] at hscope
    cases hblocks with
    | @cons a b _ _ hfirst hmore =>
      rw [List.append_assoc] at horderly ⊢
      have hfinds := reads_blocks hfirst env (b ++ rest) rfl horderly
      rw [ReadsPhrase, hscope.1] at hfinds
      rw [Template.print, Template.diagnostics, List.append_assoc (n.print ns), List.append_assoc n.diagnostics]
      exact (ih hmore hscope.2 horderly.right).node hfinds

theorem nodes_text_cons (env : Env) (raw : Text) (place : Nat) (ts : List Token) :
    nodes env (⟨.text, raw, place⟩ :: ts) = do
      let more ← nodes env ts
      return more.relax.map (.text raw :: ·) := by
  rw [nodes, node]
  rfl

/-- The text at the seam is read with the text of the second source. -/
theorem joins_seam {env env' : Env} {vs vs' : List Token} (last first : Text) (place place' : Nat)
    (h : Joins k ns [] [] (nodes env vs) (nodes env' vs')) :
    Joins k ns last [] (nodes env (Token.plain place first ++ vs))
      (nodes env' (Token.plain place' (last ++ first) ++ vs')) := by
  by_cases hfirst : first = []
  · subst hfirst
    rw [Token.plain_nil, List.append_nil]
    by_cases hlast : last = []
    · subst hlast
      exact h
    · rw [Token.plain_of_ne hlast]
      have hfinds : Finds env' ([⟨.text, last, place'⟩] ++ vs') (.text last) vs' :=
        ⟨Nat.lt_add_one _, by show node env' (_ :: vs') = _; rw [node]; rfl⟩
      simpa [Node.print, Node.diagnostics] using h.node hfinds
  · have hboth : last ++ first ≠ [] := by simp [hfirst]
    rw [Token.plain_of_ne hfirst, Token.plain_of_ne hboth, List.singleton_append, List.singleton_append,
      nodes_text_cons, nodes_text_cons]
    generalize nodes env vs = o at h
    generalize nodes env' vs' = o' at h
    cases h with
    | error => exact .error
    | @ok t t' rest below below' hprint hreport =>
      refine .ok ?_ hreport
      show last ++ first ++ Template.print ns t' =
        last ++ (first ++ Template.print ns (Template.rescope (.lexical ns) [] t))
      rw [hprint, List.nil_append, List.append_assoc]

/-- What is read as a whole is a template, and tokens that are left over are as wrong there as here. -/
theorem Joins.ofTokens {before : Text} {ts ts' : List Token}
    (h : Joins (Text.byteSize before) ns text ds (nodes ⟨source, ns, []⟩ ts) (nodes ⟨before ++ source, ns, []⟩ ts')) :
    match Template.ofTokens source ts ns with
    | .error e => Template.ofTokens (before ++ source) ts' ns = .error (e.shift (Text.byteSize before))
    | .ok t => ∃ t', Template.ofTokens (before ++ source) ts' ns = .ok t' ∧
        Template.print ns t' = text ++ Template.print ns (Template.rescope (.lexical ns) [] t) ∧
        Template.diagnostics t' = ds ++ (Template.diagnostics (Template.rescope (.lexical ns) [] t)).map
          (Diagnostic.shift (Text.byteSize before)) := by
  have hbehind : Env.Behind (Text.byteSize before) ⟨source, ns, []⟩ ⟨before ++ source, ns, []⟩ :=
    ⟨⟨before, rfl, rfl⟩, rfl⟩
  unfold Template.ofTokens
  dsimp only
  generalize nodes ⟨source, ns, []⟩ ts = o at h
  generalize nodes ⟨before ++ source, ns, []⟩ ts' = o' at h
  cases h with
  | error => rfl
  | @ok t t' rest below below' hprint hreport =>
    cases rest with
    | nil => exact ⟨t', rfl, hprint, hreport⟩
    | cons first rest =>
      have hpeek : peek (rest.map (Token.shift (Text.byteSize before))) = peek rest := peek_map_shift
      have hfor := hbehind.unexpectedTag (first :: rest) .enclosingFor
      have hif := hbehind.unexpectedTag (first :: rest) .enclosingIf
      rw [List.map_cons] at hfor hif
      simp only [bind, Except.bind, List.map_cons, List.tail_cons, hpeek, hfor, hif]
      cases peek rest with
      | none => rfl
      | some kind =>
        cases kind with
        | keyword word => cases word <;> rfl
        | _ => rfl

end

/-! ## Templates in a row -/

/-- **Reading two sources in a row.** The second is read behind the first as it is read alone, further on. -/
theorem Template.parse_append {a b ns : Text} {t : Template} (h : Template.parse a ns = .ok t)
    (hseam : a.getLast? = some '{' → ∀ m ∈ b.head?, Delim.ofMark? m = none) :
    match Template.parse b ns with
    | .error e => Template.parse (a ++ b) ns = .error (e.shift (Text.byteSize a))
    | .ok u => ∃ t', Template.parse (a ++ b) ns = .ok t' ∧
        Template.print ns t' = Template.print ns t ++ Template.print ns u ∧
        Template.diagnostics t' = Template.diagnostics t ++
          (Template.diagnostics u).map (Diagnostic.shift (Text.byteSize a)) := by
  obtain ⟨ts, hscan, htokens⟩ := Template.parse_eq_ok_iff.1 h
  have hscans := Token.scan_eq_ok_iff.1 hscan
  obtain ⟨htemplate, hscope⟩ := (Template.ofTokens_eq_ok_iff hscans.orderly).1 htokens
  obtain ⟨us, offset, last, first, rfl, hnext⟩ := Token.scan_append hscan hseam
  obtain ⟨t', ht', rfl⟩ := isTemplate_plain htemplate
  cases hb : Token.scan b with
  | error e =>
    rw [hb] at hnext
    simp only [Template.parse, hb, hnext]
    rfl
  | ok bs =>
    rw [hb] at hnext
    obtain ⟨vs, rfl, hboth⟩ := hnext
    rw [List.append_assoc] at hboth
    -- what stands behind the seam is read in the longer source as in its own
    have hbehind : Env.Behind (Text.byteSize a) ⟨b, ns, []⟩ ⟨a ++ b, ns, []⟩ := ⟨⟨a, rfl, rfl⟩, rfl⟩
    have hrest := joins_seam last first 0 offset (joins_of_follows (follows_nodes hbehind vs))
    have hfront : IsTemplate (a ++ b) us t' := by
      refine blocks_append_source ht' (fun x hx => ?_) b
      exact (hscans.stands [] rfl rfl x (List.mem_append_left _ hx)).2
    have hfrontScope : Template.rescope (.lexical ns) [] t' = t' := by
      rw [Template.rescope_append] at hscope
      exact (List.append_inj' hscope (by rw [Template.rescope_plain])).1
    have hall := (hrest.template hfront hfrontScope (Token.scan_eq_ok_iff.1 hboth).orderly).ofTokens
    simp only [Template.parse, hb, hboth, Except.mapError, bind, Except.bind]
    cases hu : Template.ofTokens b (Token.plain 0 first ++ vs) ns with
    | error e =>
      rw [hu] at hall
      simp only [hall]
      rfl
    | ok u =>
      rw [hu] at hall
      obtain ⟨whole, hwhole, hprint, hreport⟩ := hall
      rw [((Template.ofTokens_eq_ok_iff (Token.scan_eq_ok_iff.1 hb).orderly).1 hu).2] at hprint hreport
      refine ⟨whole, by rw [hwhole], ?_, ?_⟩
      · rw [hprint, Template.print_append, Template.print_plain]
      · rw [hreport, List.append_nil, Template.diagnostics_append, Template.diagnostics_plain, List.append_nil]

/-! ## Migrations in a row -/

/-- With a namespace that is a word, only the template decides. -/
theorem migrate_of_isWord {settings : Settings} (hword : settings.ns.isWord) (source : Text) :
    migrate settings source =
      match Template.parse source settings.ns with
      | .error e => .error e
      | .ok t =>
        if settings.strict ∧ Template.diagnostics t ≠ [] then .error (.unconvertible (Template.diagnostics t))
        else .ok ⟨Template.print settings.ns t, Template.diagnostics t⟩ := by
  rw [migrate, Settings.validate_eq_ok_iff.2 hword]
  cases Template.parse source settings.ns with
  | error e => rfl
  | ok t =>
    simp only [bind, Except.bind, pure, Except.pure, throw, throwThe, MonadExceptOf.throw]
    by_cases hforbidden : settings.strict ∧ Template.diagnostics t ≠ []
    · rw [if_pos hforbidden, if_pos (by simpa using hforbidden)]
    · rw [if_neg hforbidden, if_neg (by simpa using hforbidden)]

theorem Delim.ofMark?_eq_none {c : Char} (h : c ≠ '{' ∧ c ≠ '%' ∧ c ≠ '#') : Delim.ofMark? c = none := by
  simp [Delim.ofMark?, h]

/-- **Two texts in a row are brought over one after the other**, if the first can be brought over and
no opener stands across the seam: the outputs in a row, the diagnostics in a row, and whatever is
wrong with the second text is wrong with both, further on by the bytes of the first. -/
theorem migrate_append {settings : Settings} {a b : Text} {m : Migration} (h : migrate settings a = .ok m)
    (hseam : a.getLast? = some '{' → ∀ c ∈ b.head?, c ≠ '{' ∧ c ≠ '%' ∧ c ≠ '#') :
    migrate settings (a ++ b) =
      match migrate settings b with
      | .ok m' => .ok ⟨m.output ++ m'.output,
          m.diagnostics ++ m'.diagnostics.map (Diagnostic.shift (Text.byteSize a))⟩
      | .error e => .error (e.shift (Text.byteSize a)) := by
  obtain ⟨hword, t, hparse, hstrict, rfl⟩ := migrate_eq_ok_iff.1 h
  have hboth := Template.parse_append hparse fun hbrace c hc => Delim.ofMark?_eq_none (hseam hbrace c hc)
  rw [migrate_of_isWord hword b, migrate_of_isWord hword (a ++ b)]
  cases hb : Template.parse b settings.ns with
  | error e =>
    rw [hb] at hboth
    rw [hboth]
  | ok u =>
    rw [hb] at hboth
    obtain ⟨t', hparse', hprint, hreport⟩ := hboth
    simp only [hparse', hprint, hreport]
    by_cases hforbidden : settings.strict ∧ Template.diagnostics u ≠ []
    · -- strict settings leave nothing to report in the first text
      rw [if_pos hforbidden, hstrict hforbidden.1, List.nil_append, if_pos (by simpa using hforbidden)]
      rfl
    · have hall : ¬(settings.strict ∧
          Template.diagnostics t ++ (Template.diagnostics u).map (Diagnostic.shift (Text.byteSize a)) ≠ []) := by
        rintro ⟨hs, hne⟩
        rw [hstrict hs, List.nil_append] at hne
        exact hforbidden ⟨hs, fun hnil => hne (by rw [hnil]; rfl)⟩
      rw [if_neg hforbidden, if_neg hall]

/-- The text at the seam runs on over a brace, and the second text fails at its end. -/
theorem migrate_append_unclosed : ∃ m,
    (migrate ⟨false, "params".toList⟩ (Delim.var.enclose "var:a|raw".toList ++ "é\x7b".toList) = .ok m ∧
      m = ⟨Delim.var.enclose "var:a|raw".toList ++ "é\x7b".toList,
        [⟨.filter "raw".toList, Delim.var.enclose "var:a|raw".toList, 0⟩]⟩) ∧
    migrate ⟨false, "params".toList⟩ (Delim.var.enclose "var:a|raw".toList ++ "é\x7b".toList ++
        (" b".toList ++ Delim.tag.enclose "if c".toList)) =
      match migrate ⟨false, "params".toList⟩ (" b".toList ++ Delim.tag.enclose "if c".toList) with
      | .ok m' => .ok ⟨m.output ++ m'.output, m.diagnostics ++ m'.diagnostics.map (Diagnostic.shift 16)⟩
      | .error e => .error (e.shift 16) := by
  refine (exists_ok_of_toOption (f := id) ?_).imp fun m h => ⟨h, migrate_append h.1 (by simp)⟩
  decide +kernel

end MailDialect
