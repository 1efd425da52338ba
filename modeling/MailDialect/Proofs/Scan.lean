import MailDialect.Proofs.Lexeme
import MailDialect.Template.Printer
import Mathlib.Data.List.TakeWhile

/-!
# How a template divides into tokens

`Scans offset text ts` says that a text, read from byte `offset` on, is a row of plain texts and
directives whose tokens are `ts`. Main statement: these are exactly the tokens that scanning finds
(`Token.scan_eq_ok_iff`).
-/

namespace MailDialect

open Unicode

/-! ## Delimiters -/

namespace Delim

/-- The first closing delimiter of `d` after `body` is the one that stands right behind it. -/
def Closes (d : Delim) (body : Text) : Prop := d.Absent (body ++ [d.mark.2])

theorem closing?_eq_some_iff {d : Delim} {c : Char} {rest after : Text} :
    d.closing? (c :: rest) = some after ↔ c = d.mark.2 ∧ rest = '}' :: after := by
  unfold closing?
  split
  · rename_i c' rest' heq
    obtain ⟨rfl, rfl⟩ := List.cons.inj heq
    split <;> simp_all
  · rename_i hne
    constructor
    · simp
    · rintro ⟨rfl, rfl⟩; exact (hne _ _ rfl).elim

theorem head?_append_closer (d : Delim) (body after : Text) :
    (body ++ d.closer ++ after).head? = (body ++ [d.mark.2]).head? := by
  cases body <;> rfl

theorem closes_cons {d : Delim} {c : Char} {body : Text} :
    d.Closes (c :: body) ↔ (c = d.mark.2 → (body ++ [d.mark.2]).head? ≠ some '}') ∧ d.Closes body :=
  absent_cons

/-- A text divides at its first closing delimiter, and nowhere else. -/
theorem untilCloser_eq_some_iff {d : Delim} {text body after : Text} :
    d.untilCloser text = some (body, after) ↔ text = body ++ d.closer ++ after ∧ d.Closes body := by
  induction text generalizing body with
  | nil => simp [untilCloser, closer]
  | cons c rest ih =>
    rw [untilCloser]
    cases h : d.closing? (c :: rest) with
    | some found =>
      obtain ⟨rfl, rfl⟩ := closing?_eq_some_iff.1 h
      cases body with
      | nil => simp [closer, Closes, Absent]
      | cons x body =>
        simp only [Option.some.injEq, Prod.mk.injEq, reduceCtorEq, false_and, List.cons_append,
          List.cons.injEq, false_iff, not_and]
        rintro ⟨rfl, hrest⟩ hcloses
        refine (closes_cons.1 hcloses).1 rfl ?_
        rw [← head?_append_closer d body after, ← hrest]
        rfl
    | none =>
      simp only [Option.map_eq_some_iff, Prod.mk.injEq, Prod.exists]
      constructor
      · rintro ⟨body', after', hsplit, rfl, rfl⟩
        obtain ⟨hrest, hcloses⟩ := ih.1 hsplit
        refine ⟨by simp [hrest], closes_cons.2 ⟨fun hc hhead => ?_, hcloses⟩⟩
        rw [← head?_append_closer d body' after', ← hrest] at hhead
        obtain ⟨tail, rfl⟩ := List.head?_eq_some_iff.1 hhead
        rw [closing?_eq_some_iff.2 ⟨hc, rfl⟩] at h
        cases h
      · rintro ⟨htext, hcloses⟩
        cases body with
        | nil =>
          simp only [closer, List.nil_append, List.cons_append, List.cons.injEq] at htext
          rw [closing?_eq_some_iff.2 htext] at h
          cases h
        | cons x body =>
          obtain ⟨rfl, rfl⟩ := List.cons.inj htext
          exact ⟨body, after, ih.2 ⟨rfl, (closes_cons.1 hcloses).2⟩, rfl, rfl⟩

/-- A directive opens at the front of a text. -/
def Opens (text : Text) : Prop := (opening? text).isSome

/-- No directive opens inside a text. -/
def Unopened (text : Text) : Prop :=
  text.IsChain fun a b => ¬(a = '{' ∧ (ofMark? b).isSome)

/-- `raw` is plain text as far as it goes, and `rest` is empty or opens a directive. -/
def Plain (raw rest : Text) : Prop :=
  Unopened (raw ++ rest.take 1) ∧ (rest = [] ∨ Opens rest)

theorem opens_cons {c : Char} {rest : Text} :
    Opens (c :: rest) ↔ c = '{' ∧ ∃ m ∈ rest.head?, (ofMark? m).isSome := by
  cases rest with
  | nil => simp [Opens, opening?]
  | cons m rest =>
    unfold Opens opening?
    split
    · simp_all
    · rename_i hne
      simp only [List.head?_cons, Option.mem_def, Option.some.injEq, exists_eq_left', Option.isSome_none,
        Bool.false_eq_true, false_iff, not_and]
      rintro rfl; exact (hne _ _ rfl).elim

theorem unopened_cons {c : Char} {text : Text} :
    Unopened (c :: text) ↔ ¬(c = '{' ∧ ∃ m ∈ text.head?, (ofMark? m).isSome) ∧ Unopened text := by
  simp only [Unopened, List.isChain_cons, and_congr_left_iff]
  intro _
  cases text <;> simp

theorem head?_append_take (raw rest : Text) : (raw ++ rest.take 1).head? = (raw ++ rest).head? := by
  cases raw <;> cases rest <;> rfl

theorem plain_cons {c : Char} {raw rest : Text} :
    Plain (c :: raw) rest ↔ ¬Opens (c :: (raw ++ rest)) ∧ Plain raw rest := by
  rw [opens_cons, ← head?_append_take raw rest, Plain, List.cons_append, unopened_cons, and_assoc]
  rfl

/-- A text divides at the first place where a directive opens, and nowhere else. -/
theorem untilOpener_eq_iff {text raw rest : Text} :
    untilOpener text = (raw, rest) ↔ text = raw ++ rest ∧ Plain raw rest := by
  induction text generalizing raw with
  | nil =>
    simp only [untilOpener, Prod.mk.injEq]
    constructor
    · rintro ⟨rfl, rfl⟩; exact ⟨rfl, List.isChain_nil, .inl rfl⟩
    · rintro ⟨h, -⟩; simpa [eq_comm] using h
  | cons c text ih =>
    rw [untilOpener]
    split
    · rename_i hopens
      cases raw with
      | nil =>
        simp only [Prod.mk.injEq, true_and, List.nil_append]
        constructor
        · rintro rfl; exact ⟨rfl, by simp [Unopened], .inr hopens⟩
        · exact And.left
      | cons x raw =>
        simp only [Prod.mk.injEq, reduceCtorEq, false_and, List.cons_append, List.cons.injEq, false_iff,
          not_and]
        rintro ⟨rfl, rfl⟩ hplain
        exact (plain_cons.1 hplain).1 hopens
    · rename_i hopens
      cases raw with
      | nil =>
        simp only [Prod.mk.injEq, reduceCtorEq, false_and, List.nil_append, false_iff, not_and]
        rintro rfl hplain
        rcases hplain.2 with h | h
        · cases h
        · exact hopens h
      | cons x raw =>
        simp only [Prod.mk.injEq, List.cons.injEq, List.cons_append]
        constructor
        · rintro ⟨⟨rfl, hraw⟩, hrest⟩
          obtain ⟨htext, hplain⟩ := ih.1 (Prod.ext hraw hrest)
          exact ⟨⟨rfl, htext⟩, plain_cons.2 ⟨htext ▸ hopens, hplain⟩⟩
        · rintro ⟨⟨rfl, htext⟩, hplain⟩
          have hsplit := ih.2 ⟨htext, (plain_cons.1 hplain).2⟩
          exact ⟨⟨rfl, congrArg Prod.fst hsplit⟩, congrArg Prod.snd hsplit⟩

end Delim

/-! ## Lexemes in a row -/

/-- From byte `offset` on, `body` is a row of lexemes `ts` with blanks around them; `afterDot` tells
whether a point came before. -/
inductive Lexes : Bool → Nat → Text → List Token → Prop
  | blank {b : Bool} {offset : Nat} {gap : Text} (hgap : ∀ c ∈ gap, isWhiteSpace c) :
    Lexes b offset gap []
  | lexeme {b : Bool} {offset : Nat} {gap text : Text} {l : Lexeme} {ts : List Token}
    (hgap : ∀ c ∈ gap, isWhiteSpace c) (hhead : ∀ c ∈ text.head?, isWhiteSpace c = false)
    (hread : Lexeme.read b text = .ok l)
    (hmore : Lexes (l.kind == .punct .dot) (offset + Text.byteSize gap + Text.byteSize l.text) l.rest ts) :
    Lexes b offset (gap ++ text) (⟨l.kind, l.text, offset + Text.byteSize gap⟩ :: ts)

/-- The tokens between the delimiters of a directive; the body of a comment is one token. -/
def Inside (d : Delim) (b : Bool) (offset : Nat) (body : Text) (ts : List Token) : Prop :=
  match d with
  | .comment => ts = if body = [] then [] else [⟨.text, body, offset⟩]
  | _ => Lexes b offset body ts

/-- From byte `offset` on, a text is a row of plain texts and directives with the tokens `ts`. -/
inductive Scans : Nat → Text → List Token → Prop
  | nil {offset : Nat} : Scans offset [] []
  | text {offset : Nat} {raw rest : Text} {ts : List Token} (hne : raw ≠ []) (hplain : Delim.Plain raw rest)
    (hmore : Scans (offset + Text.byteSize raw) rest ts) :
    Scans offset (raw ++ rest) (⟨.text, raw, offset⟩ :: ts)
  | directive {offset : Nat} {d : Delim} {body rest : Text} {inner ts : List Token}
    (hcloses : d.Closes body) (hinside : Inside d false (offset + 2) body inner)
    (hmore : Scans (offset + 2 + Text.byteSize body + 2) rest ts) :
    Scans offset (d.enclose body ++ rest)
      (⟨.opener d, d.opener, offset⟩ ::
        (inner ++ ⟨.closer d, d.closer, offset + 2 + Text.byteSize body⟩ :: ts))

/-- The tokens ahead of a scanner. -/
def Scanner.Ahead (s : Scanner) (ts : List Token) : Prop :=
  match s.region with
  | .markup rest => Scans s.offset rest ts
  | .directive d body after => ∃ inner more, Inside d s.afterDot s.offset body inner ∧
      Scans (s.offset + Text.byteSize body + 2) after more ∧
      ts = inner ++ ⟨.closer d, d.closer, s.offset + Text.byteSize body⟩ :: more

/-! ## One step of the scanner -/

namespace Delim

@[simp] theorem byteSize_opener (d : Delim) : Text.byteSize d.opener = 2 := by cases d <;> rfl

@[simp] theorem byteSize_closer (d : Delim) : Text.byteSize d.closer = 2 := by cases d <;> rfl

theorem enclose_append (d : Delim) (body rest : Text) :
    d.enclose body ++ rest = '{' :: d.mark.1 :: (body ++ d.closer ++ rest) := by
  simp [enclose, opener]

theorem opening?_enclose (d : Delim) (body rest : Text) :
    opening? (d.enclose body ++ rest) = some (d, body ++ d.closer ++ rest) := by
  rw [enclose_append]; cases d <;> rfl

theorem opens_enclose (d : Delim) (body rest : Text) : Opens (d.enclose body ++ rest) := by
  simp [Opens, opening?_enclose]

end Delim

/-- The first lexeme of a row is the one at the front, once the blanks are skipped. -/
theorem lexes_iff {b : Bool} {offset : Nat} {body : Text} {ts : List Token} :
    Lexes b offset body ts ↔
      (body.dropWhile isWhiteSpace = [] ∧ ts = []) ∨
      ∃ l more, Lexeme.read b (body.dropWhile isWhiteSpace) = .ok l ∧
        Lexes (l.kind == .punct .dot)
          (offset + Text.byteSize (body.takeWhile isWhiteSpace) + Text.byteSize l.text) l.rest more ∧
        ts = ⟨l.kind, l.text, offset + Text.byteSize (body.takeWhile isWhiteSpace)⟩ :: more := by
  constructor
  · intro h
    cases h with
    | blank hgap => exact .inl ⟨List.dropWhile_eq_nil_iff.2 hgap, rfl⟩
    | lexeme hgap hhead hread hmore =>
      obtain ⟨htake, hdrop⟩ := takeWhile_append_of_ends hgap _ hhead
      exact .inr ⟨_, _, by rw [hdrop]; exact hread, by rw [htake]; exact hmore, by rw [htake]⟩
  · rintro (⟨hnil, rfl⟩ | ⟨l, more, hread, hmore, rfl⟩)
    · exact .blank (List.dropWhile_eq_nil_iff.1 hnil)
    · have h := Lexes.lexeme Lexeme.all_takeWhile (fun c hc => ?_) hread hmore
      · rwa [List.takeWhile_append_dropWhile] at h
      · have := List.head?_dropWhile_not isWhiteSpace body
        rw [hc] at this
        simpa using this

/-- What a scanner has ahead is what its next step says. -/
def Scanner.Step.Leaves (ts : List Token) : Scanner.Step → Prop
  | .finished => ts = []
  | .failed _ _ => False
  | .token t next => ∃ more, next.Ahead more ∧ ts = t :: more

namespace Scanner

theorem stepMarkup_of_plain (s : Scanner) {raw rest : Text} (hne : raw ≠ []) (hplain : Delim.Plain raw rest) :
    s.stepMarkup (raw ++ rest) = s.advance .text raw (.markup rest) := by
  obtain ⟨c, tail, rfl⟩ := List.exists_cons_of_ne_nil hne
  have hnone : Delim.opening? (c :: (tail ++ rest)) = none := by
    simpa [Delim.Opens] using (Delim.plain_cons.1 hplain).1
  have hsplit : Delim.untilOpener (c :: (tail ++ rest)) = (c :: tail, rest) :=
    Delim.untilOpener_eq_iff.2 ⟨rfl, hplain⟩
  simp only [List.cons_append, stepMarkup, hnone, hsplit]

theorem stepMarkup_enclose (s : Scanner) {d : Delim} {body : Text} (rest : Text) (hcloses : d.Closes body) :
    s.stepMarkup (d.enclose body ++ rest) = s.advance (.opener d) d.opener (.directive d body rest) := by
  have hopening := Delim.opening?_enclose d body rest
  have hsplit : d.untilCloser (body ++ d.closer ++ rest) = some (body, rest) :=
    Delim.untilCloser_eq_some_iff.2 ⟨rfl, hcloses⟩
  rw [Delim.enclose_append] at hopening ⊢
  simp only [stepMarkup, hopening, hsplit]

/-- Markup that does not scan as one token more is at its end, or opens a directive that nothing
closes. -/
theorem stepMarkup_cases (s : Scanner) (text : Text) :
    (text = [] ∧ s.stepMarkup text = .finished) ∨
    (∃ raw rest, raw ≠ [] ∧ Delim.Plain raw rest ∧ text = raw ++ rest) ∨
    (∃ (d : Delim) (body rest : Text), d.Closes body ∧ text = d.enclose body ++ rest) ∨
    ∃ error, s.stepMarkup text = .failed error s := by
  cases text with
  | nil => exact .inl ⟨rfl, rfl⟩
  | cons c more =>
    right
    cases hopening : Delim.opening? (c :: more) with
    | none =>
      obtain ⟨hsplit, hplain⟩ := Delim.untilOpener_eq_iff.1 (Eq.refl (Delim.untilOpener (c :: more)))
      exact .inl ⟨_, _, Delim.untilOpener_fst_ne_nil hopening, hplain, hsplit⟩
    | some found =>
      obtain ⟨d, inside⟩ := found
      have htext := Delim.opener_append_of_opening? hopening
      cases hcloser : d.untilCloser inside with
      | none => exact .inr (.inr ⟨_, by simp only [stepMarkup, hopening, hcloser]; rfl⟩)
      | some found =>
        obtain ⟨body, rest⟩ := found
        obtain ⟨rfl, hcloses⟩ := Delim.untilCloser_eq_some_iff.1 hcloser
        exact .inr (.inl ⟨d, body, rest, hcloses, by simp [← htext, Delim.enclose]⟩)

theorem scans_iff_leaves (s : Scanner) (text : Text) (ts : List Token) :
    Scans s.offset text ts ↔ (s.stepMarkup text).Leaves ts := by
  constructor
  · intro h
    cases h with
    | nil => rfl
    | @text _ raw rest more hne hplain hmore =>
      rw [stepMarkup_of_plain s hne hplain]
      exact ⟨more, hmore, rfl⟩
    | @directive _ d body rest inner more hcloses hinside hmore =>
      rw [stepMarkup_enclose s rest hcloses]
      refine ⟨_, ⟨inner, more, ?_, ?_, rfl⟩, ?_⟩ <;> simp only [Delim.byteSize_opener]
      · exact hinside
      · exact hmore
  · intro h
    rcases stepMarkup_cases s text with ⟨rfl, hstep⟩ | ⟨raw, rest, hne, hplain, rfl⟩ |
      ⟨d, body, rest, hcloses, rfl⟩ | ⟨error, hstep⟩
    · rw [hstep] at h; cases h; exact .nil
    · rw [stepMarkup_of_plain s hne hplain] at h
      obtain ⟨more, hmore, rfl⟩ := h
      exact .text hne hplain hmore
    · rw [stepMarkup_enclose s rest hcloses] at h
      obtain ⟨_, ⟨inner, more, hinside, hmore, rfl⟩, rfl⟩ := h
      simp only [Delim.byteSize_opener] at hinside hmore ⊢
      exact .directive hcloses hinside hmore
    · rw [hstep] at h; cases h

theorem comment_iff_leaves {s : Scanner} {body after : Text} (hs : s.region = .directive .comment body after)
    (ts : List Token) : s.Ahead ts ↔ (s.stepComment body after).Leaves ts := by
  simp only [Ahead, hs, Inside, stepComment]
  cases body with
  | nil =>
    simp only [if_true, Text.byteSize_nil, Nat.add_zero]
    constructor
    · rintro ⟨_, more, rfl, hmore, rfl⟩
      exact ⟨more, hmore, rfl⟩
    · rintro ⟨more, hmore, rfl⟩
      exact ⟨[], more, rfl, hmore, rfl⟩
  | cons c body =>
    simp only [reduceCtorEq, if_false]
    constructor
    · rintro ⟨_, more, rfl, hmore, rfl⟩
      exact ⟨_, ⟨[], more, rfl, hmore, rfl⟩, rfl⟩
    · rintro ⟨_, ⟨_, more, rfl, hmore, rfl⟩, rfl⟩
      exact ⟨_, more, rfl, hmore, rfl⟩

theorem byteSize_of_read {b : Bool} {body : Text} {l : Lexeme}
    (h : Lexeme.read b (body.dropWhile isWhiteSpace) = .ok l) :
    Text.byteSize body = Text.byteSize (body.takeWhile isWhiteSpace) + Text.byteSize l.text + Text.byteSize l.rest := by
  conv_lhs => rw [← List.takeWhile_append_dropWhile (p := isWhiteSpace) (l := body), ← Lexeme.text_append_rest h]
  simp [Nat.add_assoc]

theorem directive_iff_leaves {s : Scanner} {d : Delim} {body after : Text}
    (hs : s.region = .directive d body after) (hd : d ≠ .comment) (ts : List Token) :
    s.Ahead ts ↔ (s.stepDirective d body after).Leaves ts := by
  have hinside : ∀ b o text inner, Inside d b o text inner ↔ Lexes b o text inner := by
    cases d <;> simp_all [Inside]
  simp only [Ahead, hs, hinside, stepDirective]
  cases hahead : body.dropWhile isWhiteSpace with
  | nil =>
    have hgap : body.takeWhile isWhiteSpace = body := by
      simpa [hahead] using List.takeWhile_append_dropWhile (p := isWhiteSpace) (l := body)
    have hlexes : ∀ b o inner, Lexes b o body inner ↔ inner = [] := by
      intro b o inner
      rw [lexes_iff]; simp [hahead, Lexeme.read]
    simp only [hlexes, hgap]
    constructor
    · rintro ⟨_, more, rfl, hmore, rfl⟩
      exact ⟨more, by simpa [Ahead] using hmore, rfl⟩
    · rintro ⟨more, hmore, rfl⟩
      exact ⟨[], more, rfl, by simpa [Ahead] using hmore, rfl⟩
  | cons c rest =>
    cases hread : Lexeme.read s.afterDot (c :: rest) with
    | error fault =>
      simp only [Step.Leaves, iff_false]
      rintro ⟨inner, more, hlexes, -⟩
      rw [lexes_iff] at hlexes
      simp [hahead, hread] at hlexes
    | ok l =>
      have hsize := byteSize_of_read (hahead ▸ hread)
      have hoffset : ∀ g t r : Nat, s.offset + (g + t + r) = s.offset + g + t + r := fun _ _ _ => by omega
      constructor
      · rintro ⟨inner, more, hlexes, hmore, rfl⟩
        rw [lexes_iff, hahead, hread] at hlexes
        rcases hlexes with ⟨h, -⟩ | ⟨_, inner', ⟨⟩, hlexes, rfl⟩
        · cases h
        · rw [hsize, hoffset] at hmore ⊢
          exact ⟨_, ⟨inner', more, (hinside _ _ _ _).2 hlexes, hmore, rfl⟩, rfl⟩
      · rintro ⟨_, ⟨inner, more, hlexes, hmore, rfl⟩, rfl⟩
        have hlexes : Lexes s.afterDot s.offset body
            (⟨l.kind, l.text, s.offset + Text.byteSize (body.takeWhile isWhiteSpace)⟩ :: inner) := by
          rw [lexes_iff, hahead]
          exact .inr ⟨l, inner, hread, (hinside _ _ _ _).1 hlexes, rfl⟩
        rw [hsize, hoffset]
        exact ⟨_, more, hlexes, hmore, rfl⟩

theorem step_eq_stepDirective {s : Scanner} {d : Delim} {body after : Text} (hd : d ≠ .comment)
    (hs : s.region = .directive d body after) : s.step = s.stepDirective d body after := by
  rw [step, hs]
  cases d <;> first | rfl | exact (hd rfl).elim

/-- **The tokens ahead are what the next step leaves.** -/
theorem ahead_iff_leaves (s : Scanner) (ts : List Token) : s.Ahead ts ↔ s.step.Leaves ts := by
  obtain ⟨region, offset, b⟩ := s
  match region with
  | .markup rest => exact scans_iff_leaves _ rest ts
  | .directive .comment body after => exact comment_iff_leaves rfl ts
  | .directive .var body after => exact directive_iff_leaves rfl (by simp) ts
  | .directive .tag body after => exact directive_iff_leaves rfl (by simp) ts

/-- Draining a scanner yields the tokens ahead of it, or no row of tokens lies ahead. -/
theorem drain_eq_iff (s : Scanner) (ts : List Token) : s.drain = (ts, none) ↔ s.Ahead ts := by
  rw [ahead_iff_leaves]
  fun_induction drain s generalizing ts with
  | case1 s hstep => simp [hstep, Step.Leaves, eq_comm]
  | case2 s error next hstep => simp [hstep, Step.Leaves]
  | case3 s t next hstep more ih =>
    simp only [hstep, Step.Leaves, Prod.mk.injEq]
    constructor
    · rintro ⟨rfl, hnone⟩
      exact ⟨more.1, (ahead_iff_leaves _ _).2 ((ih more.1).1 (Prod.ext rfl hnone)), rfl⟩
    · rintro ⟨rest, hahead, rfl⟩
      have := (ih rest).2 ((ahead_iff_leaves _ _).1 hahead)
      simp [more, this]

end Scanner

/-- **Scanning finds exactly the row of tokens that a text is.** -/
theorem Token.scan_eq_ok_iff {source : Text} {ts : List Token} :
    Token.scan source = .ok ts ↔ Scans 0 source ts := by
  rw [show Scans 0 source ts ↔ (Scanner.start source).Ahead ts from Iff.rfl, ← Scanner.drain_eq_iff, Token.scan]
  split <;> simp_all

/-! ## What is known of the tokens -/

/-- Every token fits its kind, and digits after a point are a segment. -/
def FitsAll : Bool → List Token → Prop
  | _, [] => True
  | b, t :: ts => t.kind.Fits b t.text ∧ FitsAll (t.kind == .punct .dot) ts

theorem FitsAll.left {b : Bool} {ts us : List Token} (h : FitsAll b (ts ++ us)) : FitsAll b ts := by
  induction ts generalizing b with
  | nil => trivial
  | cons t ts ih => exact ⟨h.1, ih h.2⟩

theorem FitsAll.right {b : Bool} {ts us : List Token} (h : FitsAll b (ts ++ us)) : ∃ b', FitsAll b' us := by
  induction ts generalizing b with
  | nil => exact ⟨b, h⟩
  | cons t ts ih => exact ih h.2

theorem Lexes.fitsAll {b : Bool} {offset : Nat} {body : Text} {ts : List Token} (h : Lexes b offset body ts) :
    FitsAll b ts := by
  induction h with
  | blank => trivial
  | lexeme _ _ hread _ ih => exact ⟨Lexeme.fits hread, ih⟩

/-- No string of the tokens stands for a text with a closing delimiter of `d`. -/
def Harmless (d : Delim) (ts : List Token) : Prop :=
  ∀ t ∈ ts, ∀ value, t.kind = .string value → d.Absent value

theorem Lexes.harmless {d : Delim} {b : Bool} {offset : Nat} {body : Text} {ts : List Token}
    (h : Lexes b offset body ts) (hcloses : d.Closes body) : Harmless d ts := by
  have habsent : d.Absent body := (List.isChain_append.1 hcloses).1
  induction h with
  | blank => simp [Harmless]
  | @lexeme b offset gap text l ts hgap hhead hread hmore ih =>
    rw [← Lexeme.text_append_rest hread] at habsent hcloses
    intro t ht value hvalue
    rcases List.mem_cons.1 ht with rfl | ht
    · have hfits := Lexeme.fits hread
      simp only at hvalue
      rw [hvalue] at hfits
      obtain ⟨quote, rest, found, -, hfound, htext, rfl⟩ := hfits
      refine Quoted.absent_value hfound ( List.IsChain.infix habsent ⟨gap ++ [quote], l.rest, ?_⟩)
      simp [htext]
    · refine ih ?_ ?_ t ht value hvalue
      · exact List.IsChain.infix hcloses ⟨gap ++ l.text, [], by simp⟩
      · exact List.IsChain.infix habsent ⟨gap ++ l.text, [], by simp⟩

/-- A token at another place. -/
def Token.move (start place : Nat) (t : Token) : Token :=
  ⟨t.kind, t.text, t.offset - start + place⟩

theorem Lexes.le_offset {b : Bool} {offset : Nat} {body : Text} {ts : List Token} (h : Lexes b offset body ts) :
    ∀ t ∈ ts, offset ≤ t.offset := by
  induction h with
  | blank => simp
  | lexeme _ _ _ _ ih =>
    intro t ht
    rcases List.mem_cons.1 ht with rfl | ht
    · simp
    · have := ih t ht; omega

/-- The same body gives the same lexemes wherever it stands. -/
theorem Lexes.move {b : Bool} {start : Nat} {body : Text} {ts : List Token} (h : Lexes b start body ts)
    (place : Nat) : Lexes b place body (ts.map (Token.move start place)) := by
  induction h generalizing place with
  | blank hgap => exact .blank hgap
  | @lexeme b start gap text l ts hgap hhead hread hmore ih =>
    have hhere : start + Text.byteSize gap - start + place = place + Text.byteSize gap := by omega
    have hmoved : ts.map (Token.move start place) = ts.map (Token.move
        (start + Text.byteSize gap + Text.byteSize l.text) (place + Text.byteSize gap + Text.byteSize l.text)) := by
      refine List.map_congr_left fun t ht => ?_
      have := hmore.le_offset t ht
      simp only [Token.move, Token.mk.injEq, true_and]
      omega
    rw [List.map_cons, hmoved, Token.move, hhere]
    exact .lexeme hgap hhead hread (ih _)

/-- A body has no other lexemes than these. -/
theorem Lexes.unique {b : Bool} {offset : Nat} {body : Text} {ts us : List Token} (h : Lexes b offset body ts)
    (h' : Lexes b offset body us) : us = ts := by
  have hempty : ∀ {b l}, Lexeme.read b [] ≠ .ok l := by
    intro b l hread
    exact Lexeme.text_ne_nil hread (List.append_eq_nil_iff.1 (Lexeme.text_append_rest hread)).1
  induction h generalizing us with
  | @blank b offset gap hgap =>
    rcases lexes_iff.1 h' with ⟨-, hus⟩ | ⟨l, more, hread, -⟩
    · exact hus
    · rw [List.dropWhile_eq_nil_iff.2 hgap] at hread
      exact (hempty hread).elim
  | @lexeme b offset gap text l ts hgap hhead hread hmore ih =>
    obtain ⟨htake, hdrop⟩ := takeWhile_append_of_ends hgap _ hhead
    rw [lexes_iff, htake, hdrop] at h'
    rcases h' with ⟨rfl, -⟩ | ⟨l', more, hread', hmore', rfl⟩
    · exact (hempty hread).elim
    · cases hread.symm.trans hread'
      rw [ih hmore']

/-- After a punctuation mark a token starts like a word exactly if it is one. Plain text may start
like a word too, but no punctuation mark stands before it. -/
def Orderly (ts : List Token) : Prop :=
  ts.IsChain fun a b => (∃ p, a.kind = .punct p) → b.isWordLike = b.kind.isWord

theorem orderly_cons {t : Token} {ts : List Token} :
    Orderly (t :: ts) ↔ (∀ u ∈ ts.head?, (∃ p, t.kind = .punct p) → u.isWordLike = u.kind.isWord) ∧ Orderly ts :=
  List.isChain_cons

theorem Orderly.right {ts us : List Token} (h : Orderly (ts ++ us)) : Orderly us :=
  (List.isChain_append.1 h).2.1

theorem orderly_append {ts us : List Token} (hts : ∀ t ∈ ts, t.isWordLike = t.kind.isWord)
    (hhead : ∀ u ∈ us.head?, u.isWordLike = u.kind.isWord) (hus : Orderly us) : Orderly (ts ++ us) := by
  induction ts with
  | nil => exact hus
  | cons t ts ih =>
    refine orderly_cons.2 ⟨fun u hu _ => ?_, ih fun t ht => hts t (List.mem_cons_of_mem _ ht)⟩
    cases ts with
    | nil => exact hhead u hu
    | cons v ts => exact hts u (by simp at hu; simp [hu])

theorem Lexes.isWordLike {b : Bool} {offset : Nat} {body : Text} {ts : List Token} (h : Lexes b offset body ts) :
    ∀ t ∈ ts, t.isWordLike = t.kind.isWord := by
  induction h with
  | blank => simp
  | lexeme _ _ hread _ ih =>
    intro t ht
    rcases List.mem_cons.1 ht with rfl | ht
    · exact Token.isWordLike_of_fits (Lexeme.fits hread)
    · exact ih t ht

/-- The tokens of a template are orderly. -/
theorem Scans.orderly {offset : Nat} {text : Text} {ts : List Token} (h : Scans offset text ts) : Orderly ts := by
  induction h with
  | nil => exact List.isChain_nil
  | text _ _ _ ih => exact orderly_cons.2 ⟨by simp, ih⟩
  | @directive offset d body rest inner ts _ hinside _ ih =>
    have hclose : ∀ o, Orderly (⟨.closer d, d.closer, o⟩ :: ts) := fun o => orderly_cons.2 ⟨by simp, ih⟩
    have hword : ∀ o, (Token.mk (.closer d) d.closer o).isWordLike = false := by intro o; cases d <;> rfl
    refine orderly_cons.2 ⟨by simp, ?_⟩
    cases d with
    | comment =>
      -- the body of a comment may start like a word, but it follows an opener
      simp only [Inside] at hinside
      subst hinside
      split
      · exact hclose _
      · exact orderly_cons.2 ⟨by simp, hclose _⟩
    | var | tag => exact orderly_append hinside.isWordLike (by simp [hword, Token.Kind.isWord]) (hclose _)

end MailDialect
