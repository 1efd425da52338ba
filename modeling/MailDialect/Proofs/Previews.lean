import MailDialect.Proofs.Passes
import MailDialect.Proofs.Patterns
import MailDialect.Proofs.PlainWriting

/-!
# Previews of plainly written sources

A preview is found by patterns in the characters of a source, and a template is read from its tokens.
On a plainly written source the two agree: the patterns find each variable and each loop over a plain
name where it stands, and nothing else (`finds_variables`, `finds_loops`), and look for conditions in the
tags of conditions alone (`conditions_blocks`). So a preview starts with the names of the variables of the
template, goes on with those of its collections, and ends with what its conditions add
(`Preview.ofSource_of_plain`).
-/

namespace MailDialect

open Unicode Grammar Pattern

/-! ## First occurrences -/

namespace Preview

def sameName (a b : Text × Value) : Bool := a.1 == b.1

/-- The first entry of each name. -/
def firsts (entries : List (Text × Value)) : Preview := entries.eraseDupsBy sameName

/-- The entries whose name is not there yet. -/
def unseen (seen : Preview) (entries : List (Text × Value)) : List (Text × Value) :=
  entries.filter fun entry => !seen.any (sameName entry)

theorem insert_eq (seen : Preview) (entry : Text × Value) :
    seen.insert entry.1 entry.2 = if seen.any (sameName entry) then seen else seen ++ [entry] := by
  have hany : (seen.any fun e => e.1 == entry.1) = seen.any (sameName entry) :=
    congrArg seen.any (funext fun e => BEq.comm)
  rw [insert, hany]

/-- Collecting adds the first entry of each name that is not there yet. -/
theorem collect_eq (pattern : Pattern Piece) (value : List (Piece × Text) → Value) (source : Text)
    (preview : Preview) : collect pattern value source preview = preview ++
      firsts (unseen preview ((pattern.search source).map fun captures => (piece .name captures, value captures))) := by
  have hinsert : ∀ (seen : Preview) (captures : List (Piece × Text)),
      seen.insert (piece .name captures) (value captures) =
        if seen.any (sameName (piece .name captures, value captures)) then seen
        else seen ++ [(piece .name captures, value captures)] := fun seen captures => insert_eq seen (_, _)
  simp only [collect, hinsert]
  rw [firsts, unseen, ← foldl_insert_eq, List.foldl_map]

end Preview

/-! ## What the patterns find in a directive -/

section
variable {gap text ending rest more : Text} {p : Path} {default : Option Literal}

theorem head?_append_of_blank {P : Char → Prop} (hgap : gap.Blank) (hblank : ∀ c, isWhiteSpace c → P c)
    (h : ∀ c ∈ text.head?, P c) : ∀ c ∈ (gap ++ text).head?, P c := by
  cases gap with
  | nil => exact h
  | cons x gap => rintro c ⟨⟩; exact hblank _ (hgap _ (by simp))

theorem head?_append_of_forall {P : Char → Prop} (hne : text ≠ []) (h : ∀ c ∈ text, P c) :
    ∀ c ∈ (text ++ rest).head?, P c := by
  obtain ⟨x, tail, rfl⟩ := List.exists_cons_of_ne_nil hne
  rintro c ⟨⟩
  exact h _ (by simp)

theorem not_isWhiteSpace_of_isDottedChar {c : Char} (h : Preview.isDottedChar c) : isWhiteSpace c = false := by
  by_contra hblank
  have hc := not_isDottedChar_of_isWhiteSpace (by simpa using hblank)
  rw [h] at hc
  cases hc

/-- A name before a marker's colon is the marker. -/
theorem eq_of_append_eq_marker {q : Char → Bool} {name : Text} (hq : Dialect.marker.all q && !q ':')
    (hname : ∀ c ∈ name, q c) (hnext : ∀ c ∈ text.head?, q c = false)
    (h : name ++ text = Dialect.marker ++ [':'] ++ rest) : text = ':' :: rest := by
  rw [Bool.and_eq_true, List.all_eq_true] at hq
  have hmarker := takeWhile_append_of_ends hq.1 (':' :: rest) (by simpa using hq.2)
  have hsplit := takeWhile_append_of_ends hname text hnext
  rw [h, List.append_assoc, List.singleton_append, hmarker.2] at hsplit
  exact hsplit.2.symm

/-- The piece of a variable that its default is. -/
def defaultCaptures : Option Literal → List (Preview.Piece × Text)
  | some (.string value) => [(.value, value)]
  | _ => []

theorem Ending.head? (h : Ending default ending) : ∀ c ∈ (ending ++ '}' :: more).head?, Preview.isDottedChar c = false := by
  cases h with
  | @bare gap filters hgap hfilters =>
    rw [List.append_assoc]
    refine head?_append_of_blank hgap (fun c => not_isDottedChar_of_isWhiteSpace) ?_
    cases filters with
    | nil => rintro c ⟨⟩; decide
    | cons x filters => rintro c ⟨⟩; rw [hfilters _ rfl]; decide
  | default hgap =>
    rw [List.append_assoc]
    refine head?_append_of_blank hgap (fun c => not_isDottedChar_of_isWhiteSpace) ?_
    rintro c ⟨⟩; decide

/-- Behind a colon right after the name stands a default. -/
theorem Ending.behind_colon (h : Ending default ending) (hcolon : ending ++ '}' :: more = ':' :: rest) :
    ∀ c ∈ rest.head?, Preview.isDottedChar c = false := by
  have hblank : isWhiteSpace ':' = false := by decide
  cases h with
  | @bare gap filters hgap hfilters =>
    cases gap with
    | cons x gap =>
      obtain ⟨rfl, -⟩ := List.cons.inj hcolon
      rw [hgap _ (by simp)] at hblank
      cases hblank
    | nil =>
      cases filters with
      | nil => cases hcolon
      | cons x filters =>
        obtain ⟨rfl, -⟩ := List.cons.inj hcolon
        cases hfilters _ rfl
  | @default gap inside value filters hgap hinside hvalue =>
    cases gap with
    | cons x gap =>
      obtain ⟨rfl, -⟩ := List.cons.inj hcolon
      rw [hgap _ (by simp)] at hblank
      cases hblank
    | nil =>
      obtain rfl : inside ++ ('"' :: (value ++ '"' :: filters) ++ '}' :: more) = rest := by simpa using hcolon
      refine head?_append_of_blank hinside (fun c => not_isDottedChar_of_isWhiteSpace) ?_
      rintro c ⟨⟩; decide

/-- The part of the pattern behind the name takes the default, if there is one, and reaches the closer. -/
theorem Ending.prefers (h : Ending default ending) (hbraces : ∀ c ∈ ending, c ≠ '}') :
    (Pattern.sequence [Preview.blanks, optional Preview.quotedDefault, many (· != '}'),
      literal Delim.var.closer]).Prefers (ending ++ (Delim.var.closer ++ rest)) (defaultCaptures default) rest := by
  have htail : ∀ {filters : Text}, (∀ c ∈ filters, c ≠ '}') →
      (Pattern.sequence [many (· != '}'), literal Delim.var.closer] : Pattern Preview.Piece).Prefers
        (filters ++ (Delim.var.closer ++ rest)) [] rest := fun hfilters =>
    prefers_seq (prefers_many (by simpa using hfilters) (by rintro c ⟨⟩; rfl)) (prefers_seq prefers_literal prefers_empty)
  cases h with
  | @bare gap filters hgap hfilters =>
    have hnext : ∀ c ∈ (filters ++ (Delim.var.closer ++ rest)).head?, c = '|' ∨ c = '}' := by
      cases filters with
      | nil => rintro c ⟨⟩; exact .inr rfl
      | cons x filters => rintro c ⟨⟩; exact .inl (hfilters _ rfl)
    have hblank : ∀ c ∈ (filters ++ (Delim.var.closer ++ rest)).head?, isWhiteSpace c = false := by
      intro c hc
      rcases hnext c hc with rfl | rfl <;> decide
    have hcolon : ∀ c ∈ (filters ++ (Delim.var.closer ++ rest)).head?, (c == ':') = false := by
      intro c hc
      rcases hnext c hc with rfl | rfl <;> decide
    rw [List.append_assoc]
    exact prefers_seq (prefers_many hgap hblank) (prefers_seq (prefers_skip (refuses_seq (refuses_one hcolon)))
      (htail (List.forall_mem_append.1 hbraces).2))
  | @default gap inside value filters hgap hinside hvalue =>
    have hquoted : Preview.quotedDefault.Prefers
        (':' :: (inside ++ '"' :: (value ++ '"' :: (filters ++ (Delim.var.closer ++ rest))))) [(.value, value)]
        (filters ++ (Delim.var.closer ++ rest)) := by
      refine prefers_seq (prefers_one rfl) (prefers_seq (prefers_many hinside (by rintro c ⟨⟩; decide))
        (prefers_seq (prefers_one rfl) (prefers_seq (prefers_capture (prefers_many ?_ (by rintro c ⟨⟩; rfl)))
          (prefers_seq (prefers_one rfl) prefers_empty))))
      intro c hc
      rw [bne_iff_ne]
      rintro rfl
      exact hvalue hc
    have hfilters : ∀ c ∈ filters, c ≠ '}' := fun c hc => hbraces c (by simp [hc])
    have htext : gap ++ ':' :: (inside ++ '"' :: (value ++ '"' :: filters)) ++ (Delim.var.closer ++ rest) =
        gap ++ (':' :: (inside ++ '"' :: (value ++ '"' :: (filters ++ (Delim.var.closer ++ rest))))) := by simp
    rw [htext]
    exact prefers_seq (prefers_many hgap (by rintro c ⟨⟩; decide)) (prefers_seq (prefers_optional hquoted)
      (htail hfilters))

/-- **The variable pattern takes a plainly written variable, and its name and default with it.** -/
theorem variablePattern_prefers {marked : Bool} (hgap : gap.Blank) (hp : p.IsPlain) (h : Ending default ending)
    (hbraces : ∀ c ∈ ending, c ≠ '}') :
    Preview.variablePattern.Prefers (Delim.var.enclose (gap ++ (marking marked ++ (p.dotted ++ ending))) ++ rest)
      ((.name, p.dotted) :: defaultCaptures default) rest := by
  obtain ⟨hne, hdotted⟩ := hp.dotted
  have hnext : ∀ c ∈ (ending ++ (Delim.var.closer ++ rest)).head?, Preview.isDottedChar c = false := h.head?
  have hname : (Pattern.sequence [capture .name (oneOrMore Preview.isDottedChar), Preview.blanks,
      optional Preview.quotedDefault, many (· != '}'), literal Delim.var.closer]).Prefers
        (p.dotted ++ (ending ++ (Delim.var.closer ++ rest))) ((.name, p.dotted) :: defaultCaptures default) rest :=
    prefers_seq (prefers_capture (prefers_oneOrMore hne hdotted hnext)) (h.prefers hbraces)
  have htext : Delim.var.enclose (gap ++ (marking marked ++ (p.dotted ++ ending))) ++ rest =
      Delim.var.opener ++ (gap ++ (marking marked ++ (p.dotted ++ (ending ++ (Delim.var.closer ++ rest))))) := by
    simp [Delim.enclose]
  rw [htext]
  cases marked with
  | true =>
    exact prefers_seq prefers_literal (prefers_seq (prefers_many hgap (by rintro c ⟨⟩; decide))
      (prefers_seq (prefers_optional prefers_literal) hname))
  | false =>
    simp only [marking, Bool.false_eq_true, if_false, List.nil_append]
    refine prefers_seq prefers_literal (prefers_seq (prefers_many hgap ?_) (prefers_seq_skip ?_ hname))
    · exact head?_append_of_forall hne fun c hc => not_isWhiteSpace_of_isDottedChar (hdotted c hc)
    · -- a variable named like the marker has its default behind the colon, and no name
      rintro used after htext hused
      rw [accepts_literal] at hused
      subst hused
      have hcolon := eq_of_append_eq_marker (by decide) hdotted hnext htext
      exact refuses_seq (refuses_capture (refuses_seq (refuses_one (h.behind_colon hcolon))))

/-- **The loop pattern takes a plainly written loop over a plain name, and the name with it.** -/
theorem loopPattern_prefers {g g₁ g₂ g₃ g₄ x name : Text} {marked : Bool}
    (hblank : ∀ gap ∈ [g, g₁, g₂, g₃, g₄], gap.Blank) (hne : ∀ gap ∈ [g₁, g₂, g₃], gap ≠ [])
    (hx : x.IsPlainName) (hname : name.IsPlainName) :
    Preview.loopPattern.Prefers (Delim.tag.enclose (g ++ (['f', 'o', 'r'] ++ (g₁ ++ (x ++ (g₂ ++ (['i', 'n'] ++
      (g₃ ++ (marking marked ++ (name ++ g₄))))))))) ++ rest) [(.name, name)] rest := by
  simp only [List.forall_mem_cons, List.not_mem_nil, false_imp_iff, implies_true, and_true] at hblank hne
  obtain ⟨hg, hg₁, hg₂, hg₃, hg₄⟩ := hblank
  obtain ⟨hne₁, hne₂, hne₃⟩ := hne
  have hnotBlank : ∀ {name text : Text}, name.IsPlainName → ∀ c ∈ (name ++ text).head?, isWhiteSpace c = false :=
    fun h => head?_append_of_forall h.1 fun c hc =>
      not_isWhiteSpace_of_isDottedChar (isDottedChar_of_isNameChar (h.2 c hc))
  have hbehind : ∀ c ∈ (g₄ ++ (Delim.tag.closer ++ rest)).head?, Preview.isNameChar c = false :=
    head?_append_of_blank hg₄ (fun c => not_isNameChar_of_isWhiteSpace) (by rintro c ⟨⟩; decide)
  have hbetween : ∀ text : Text, ∀ c ∈ (g₂ ++ text).head?, Preview.isNameChar c = false := by
    obtain ⟨y, g₂, rfl⟩ := List.exists_cons_of_ne_nil hne₂
    rintro text c ⟨⟩
    exact not_isNameChar_of_isWhiteSpace (hg₂ _ (by simp))
  have hclose : (Pattern.sequence [capture .name (oneOrMore Preview.isNameChar), Preview.blanks,
      literal Delim.tag.closer]).Prefers (name ++ (g₄ ++ (Delim.tag.closer ++ rest))) [(.name, name)] rest :=
    prefers_seq (prefers_capture (prefers_oneOrMore hname.1 hname.2 hbehind))
      (prefers_seq (prefers_many hg₄ (by rintro c ⟨⟩; decide)) (prefers_seq prefers_literal prefers_empty))
  have hcollection : (Pattern.sequence [oneOrMore isWhiteSpace, Preview.optionalMarker,
      capture .name (oneOrMore Preview.isNameChar), Preview.blanks, literal Delim.tag.closer]).Prefers
        (g₃ ++ (marking marked ++ (name ++ (g₄ ++ (Delim.tag.closer ++ rest))))) [(.name, name)] rest := by
    cases marked with
    | true =>
      exact prefers_seq (prefers_oneOrMore hne₃ hg₃ (by rintro c ⟨⟩; decide))
        (prefers_seq (prefers_optional prefers_literal) hclose)
    | false =>
      simp only [marking, Bool.false_eq_true, if_false, List.nil_append]
      refine prefers_seq (prefers_oneOrMore hne₃ hg₃ (hnotBlank hname)) (prefers_seq (prefers_skip ?_) hclose)
      have hcolon : ∀ c ∈ (g₄ ++ (Delim.tag.closer ++ rest)).head?, c ≠ ':' :=
        head?_append_of_blank hg₄ (by rintro c hc rfl; exact absurd hc (by decide)) (by rintro c ⟨⟩; decide)
      refine refuses_iff.2 fun used after htext hused => ?_
      rw [accepts_literal] at hused
      subst hused
      rw [eq_of_append_eq_marker (by decide) hname.2 hbehind htext] at hcolon
      exact hcolon ':' rfl rfl
  have htext : Delim.tag.enclose (g ++ (['f', 'o', 'r'] ++ (g₁ ++ (x ++ (g₂ ++ (['i', 'n'] ++
      (g₃ ++ (marking marked ++ (name ++ g₄))))))))) ++ rest = Delim.tag.opener ++ (g ++ (['f', 'o', 'r'] ++
        (g₁ ++ (x ++ (g₂ ++ (['i', 'n'] ++ (g₃ ++ (marking marked ++ (name ++ (g₄ ++
          (Delim.tag.closer ++ rest))))))))))) := by
    simp [Delim.enclose]
  rw [htext]
  exact prefers_seq prefers_literal (prefers_seq (prefers_many hg (by rintro c ⟨⟩; decide))
    (prefers_seq prefers_literal (prefers_seq (prefers_oneOrMore hne₁ hg₁ (hnotBlank hx))
      (prefers_seq (prefers_oneOrMore hx.1 hx.2 (hbetween _))
        (prefers_seq (prefers_oneOrMore hne₂ hg₂ (by rintro c ⟨⟩; decide))
          (prefers_seq prefers_literal hcollection))))))

end

/-! ## The tags that a pattern matches -/

section
variable {b : Bool} {offset : Nat} {word body body' rest rest' used : Text} {parts : List (Pattern Preview.Piece)}
  {inner : List Token} {head : Head} {k : Keyword}

/-- What a pattern for tags accepts starts with its word, and holds blanks and what its parts take alone. -/
theorem tagPattern_accepts (h : (Preview.tagPattern word parts).Accepts used) : ∃ (gap : Text) (c : Char) (more : Text),
    used = Delim.tag.enclose (gap ++ (word ++ c :: more)) ∧ gap.Blank ∧ isWhiteSpace c ∧
    ∀ x, isWhiteSpace x = false → x ∉ word → parts.all (avoids x) → x ∉ gap ++ (word ++ c :: more) := by
  obtain ⟨_, _, rfl, hopener, gap, _, rfl, hgap, _, _, rfl, hword, blanks, _, rfl, hblanks, htail⟩ := h
  obtain ⟨more, _, rfl, hmore, _, _, rfl, hcloser, rfl⟩ := accepts_sequence_append.1 htail
  rw [accepts_literal] at hopener hword hcloser
  subst hopener hword hcloser
  obtain ⟨hne, hblanks⟩ := accepts_oneOrMore.1 hblanks
  obtain ⟨c, blanks, rfl⟩ := List.exists_cons_of_ne_nil hne
  refine ⟨gap, c, blanks ++ more, by simp [Delim.enclose], hgap, hblanks c (by simp), fun x hx hword hparts hmem => ?_⟩
  have hnotBlank : ∀ {text : Text}, (∀ y ∈ text, isWhiteSpace y) → x ∉ text := by
    intro text htext hmem
    rw [htext x hmem] at hx
    cases hx
  rw [← List.cons_append] at hmem
  simp only [List.mem_append] at hmem
  rcases hmem with hmem | hmem | hmem | hmem
  · exact hnotBlank hgap hmem
  · exact hword hmem
  · exact hnotBlank hblanks hmem
  · exact hmore.not_mem (by rw [avoids_sequence]; exact hparts) hmem

/-- A word in front of a body that goes on like a tag with a reserved word is that word. -/
theorem Lexes.kind_eq_keyword {t : Token} {ts : List Token} {gap more : Text} {c : Char}
    (h : Lexes b offset (gap ++ (word ++ c :: more)) (t :: ts)) (hk : Keyword.ofWord? word = some k)
    (hspelled : word.isWord) (hgap : gap.Blank) (hc : isWhiteSpace c) (hword : t.kind.isWord) :
    t.kind = .keyword k := by
  obtain ⟨gap', rest, hbody, hgap', -, hfits, hends, -⟩ := h.cons_inv
  have hstart : ∀ {w rest : Text}, w.isWord → ∀ x ∈ (w ++ rest).head?, isWhiteSpace x = false := by
    intro w rest hw
    obtain ⟨hne, hchars⟩ := chars_of_isWord hw
    exact head?_append_of_forall hne fun x hx => not_isWhiteSpace_of_isWordChar (hchars x hx)
  have hstop : ∀ x ∈ (c :: more).head?, isWordChar x = false := by
    rintro x ⟨⟩
    by_contra hword
    rw [not_isWhiteSpace_of_isWordChar (by simpa using hword)] at hc
    cases hc
  -- the blanks in front end at the same place, and then the word ends at the same place
  have hfront := (takeWhile_append_of_ends hgap (word ++ c :: more) (hstart hspelled)).2
  rw [hbody, (takeWhile_append_of_ends hgap' _ (hstart (hfits.isWord hword))).2] at hfront
  have htext := (takeWhile_append_of_ends (chars_of_isWord (hfits.isWord hword)).2 rest (hends hword)).1
  rw [hfront, (takeWhile_append_of_ends (chars_of_isWord hspelled).2 _ hstop).1] at htext
  cases hkind : t.kind with
  | name =>
    rw [hkind, ← htext] at hfits
    cases hk.symm.trans hfits.2
  | keyword k' =>
    rw [hkind, ← htext] at hfits
    cases hk.symm.trans hfits.2
    rfl
  | _ => simp [hkind, Token.Kind.isWord] at hword

theorem Delim.body_eq_of_closes {d : Delim} (h : d.enclose body ++ rest = d.enclose body' ++ rest')
    (hcloses : d.Closes body) (hcloses' : d.Closes body') : body = body' := by
  rw [Delim.enclose_append, Delim.enclose_append, List.cons.injEq, List.cons.injEq] at h
  have hsplit := Delim.untilCloser_eq_some_iff.2 ⟨h.2.2, hcloses'⟩
  rw [Delim.untilCloser_eq_some_iff.2 ⟨rfl, hcloses⟩] at hsplit
  cases hsplit
  rfl

theorem Grammar.IsHead.head_isWord (h : IsHead .tag inner head) : ∃ t ts, inner = t :: ts ∧ t.kind.isWord := by
  cases h with
  | ifTag h | elseif h | elseIf h | elseTag h | endifTag h | forTag h | endforTag h | opening h | closing h =>
    exact ⟨_, _, rfl, by rw [h]; rfl⟩

/-- What a pattern for tags matches is the tag in front: its word comes first, and what its parts avoid is not there. -/
theorem tagPattern_body (hspelled : word.isWord) (hparts : parts.all (avoids '}')) (hcloses : Delim.tag.Closes body)
    (htext : Delim.tag.enclose body ++ rest = used ++ rest') (haccepts : (Preview.tagPattern word parts).Accepts used) :
    ∃ (gap : Text) (c : Char) (more : Text), body = gap ++ (word ++ c :: more) ∧ gap.Blank ∧ isWhiteSpace c ∧
      ∀ x, isWhiteSpace x = false → x ∉ word → parts.all (avoids x) → x ∉ body := by
  obtain ⟨gap, c, more, rfl, hgap, hc, hchars⟩ := tagPattern_accepts haccepts
  have hbrace : '}' ∉ word := fun hmem => absurd ((chars_of_isWord hspelled).2 _ hmem) (by decide)
  have hclear : Delim.tag.Closes (gap ++ (word ++ c :: more)) := by
    refine (clear_of_forall_ne ?_).closes
    rintro x hx rfl
    exact hchars '}' (by decide) hbrace hparts hx
  obtain rfl := Delim.body_eq_of_closes htext hcloses hclear
  exact ⟨gap, c, more, rfl, hgap, hc, hchars⟩

/-- **A pattern for tags matches only tags that start with its word.** -/
theorem tagPattern_keyword (hk : Keyword.ofWord? word = some k) (hspelled : word.isWord)
    (hparts : parts.all (avoids '}')) (hlexes : Lexes b offset body inner) (hcloses : Delim.tag.Closes body)
    (hhead : IsHead .tag inner head) (htext : Delim.tag.enclose body ++ rest = used ++ rest')
    (haccepts : (Preview.tagPattern word parts).Accepts used) : ∃ t ∈ inner.head?, t.kind = .keyword k := by
  obtain ⟨gap, c, more, rfl, hgap, hc, -⟩ := tagPattern_body hspelled hparts hcloses htext haccepts
  obtain ⟨t, ts, rfl, hword⟩ := hhead.head_isWord
  exact ⟨t, rfl, hlexes.kind_eq_keyword hk hspelled hgap hc hword⟩

end

/-! ## Where the patterns for tags find nothing -/

/-- The name that a loop runs over as it is, without properties and filters. -/
def Grammar.Head.collection? : Head → Option Text
  | .forTag _ (.collection ⟨base, [], _⟩ []) => some base
  | _ => none

theorem Grammar.Head.collection?_eq_some {head : Head} {name : Text} (h : head.collection? = some name) :
    ∃ x scope, head = .forTag x (.collection ⟨name, [], scope⟩ []) := by
  unfold Head.collection? at h
  split at h
  · cases h; exact ⟨_, _, rfl⟩
  · cases h

section
variable {b : Bool} {offset : Nat} {body rest : Text} {inner : List Token} {head : Head}

/-- **The loop pattern matches no tag but that of a loop over a plain name**: other words stand in front of
the others, and properties, filters and numeric loops take other marks. -/
theorem loopPattern_refuses (hlexes : Lexes b offset body inner) (hcloses : Delim.tag.Closes body)
    (hhead : IsHead .tag inner head) (hnone : head.collection? = none) :
    Preview.loopPattern.Refuses (Delim.tag.enclose body ++ rest) := by
  refine refuses_iff.2 fun used after htext haccepts => ?_
  obtain ⟨t, ht, hkind⟩ := tagPattern_keyword (k := .kwFor) rfl (by decide) (by decide) hlexes hcloses hhead htext haccepts
  obtain ⟨-, -, -, -, -, -, hchars⟩ := tagPattern_body (by decide) (by decide) hcloses htext haccepts
  cases hhead with
  | ifTag h | elseif h | elseIf h | elseTag h | endifTag h | endforTag h | opening h | closing h =>
    cases ht
    cases h.symm.trans hkind
  | @forTag word name second ts _ _ _ _ hsource =>
    cases hsource with
    | range _ hopening =>
      exact hchars '(' (by decide) (by decide) (by decide) (hlexes.mem_punct (by simp) hopening rfl)
    | @collection ts us p marked fs hpath hfilters =>
      cases hfilters with
      | cons hbar => exact hchars '|' (by decide) (by decide) (by decide) (hlexes.mem_punct (by simp) hbar rfl)
      | nil =>
        have hfields : ∀ {us fields}, IsFields us fields → (∀ t ∈ us, t ∈ ts) → fields = [] := by
          intro us fields h hus
          cases h with
          | nil => rfl
          | cons hpoint =>
            exact (hchars '.' (by decide) (by decide) (by decide) (hlexes.mem_punct (by simp [hus]) hpoint rfl)).elim
        cases hpath with
        | plain _ h =>
          rw [hfields h (by simp +contextual)] at hnone
          cases hnone
        | marked _ _ _ _ h =>
          rw [hfields h (by simp +contextual)] at hnone
          cases hnone

/-- **The condition pattern matches no tag but that of a condition.** -/
theorem conditionPattern_refuses (hlexes : Lexes b offset body inner) (hcloses : Delim.tag.Closes body)
    (hhead : IsHead .tag inner head) (hother : ∀ c, head ≠ .ifTag c) :
    Preview.conditionPattern.Refuses (Delim.tag.enclose body ++ rest) := by
  refine refuses_iff.2 fun used after htext haccepts => ?_
  obtain ⟨t, ht, hkind⟩ := tagPattern_keyword (k := .kwIf) rfl (by decide) (by decide) hlexes hcloses hhead htext haccepts
  cases hhead with
  | ifTag => exact hother _ rfl
  | elseif h | elseIf h | elseTag h | endifTag h | forTag h | endforTag h | opening h | closing h =>
    cases ht
    cases h.symm.trans hkind

end

/-! ## What the patterns find in a source -/

namespace Delim

variable {d e : Delim} {text body raw rest more : Text}

theorem openerFree_append (htext : '{' ∉ text) (hmore : d.OpenerFree more) : d.OpenerFree (text ++ more) := by
  induction text with
  | nil => exact hmore
  | cons c text ih =>
    rw [List.mem_cons, not_or] at htext
    exact List.isChain_cons.2 ⟨fun _ _ hopens => htext.1 hopens.1.symm, ih htext.2⟩

theorem openerFree_take (d : Delim) (rest : Text) : d.OpenerFree (rest.take 1) := by
  cases rest with
  | nil => exact List.isChain_nil
  | cons c rest => exact List.isChain_singleton c

theorem openerFree_of_plain (h : Delim.Plain raw rest) : d.OpenerFree (raw ++ rest.take 1) := by
  refine h.1.imp fun x y hxy hopens => hxy ⟨hopens.1, ?_⟩
  rw [hopens.2]
  cases d <;> rfl

theorem not_mem_append_closer (h : body.Braceless) : '{' ∉ body ++ e.closer := by
  rw [List.mem_append, not_or]
  exact ⟨fun hmem => (h _ hmem).1 rfl, by cases e <;> decide⟩

/-- A directive holds no opening delimiter but its own. -/
theorem openerFree_enclose (hmark : e.mark.1 ≠ d.mark.1) (hbody : body.Braceless)
    (hhead : e = .var → body.head? ≠ some d.mark.1) : d.OpenerFree (e.enclose body ++ rest.take 1) := by
  have hinside : d.OpenerFree (body ++ e.closer ++ rest.take 1) :=
    openerFree_append (not_mem_append_closer hbody) (d.openerFree_take rest)
  rw [enclose_append]
  refine List.isChain_cons_cons.2 ⟨fun hopens => hmark hopens.2, List.isChain_cons.2 ⟨?_, hinside⟩⟩
  rintro y hy ⟨hbrace, rfl⟩
  have he : e = .var := by cases e <;> simp_all [mark]
  subst he
  cases body with
  | nil => cases d <;> simp [closer, mark] at hy
  | cons c body => exact hhead rfl hy

end Delim

section
variable {ns body rest : Text} {ps qs more : List Piece} {heads : List Head}

/-- A pattern for directives finds nothing in a text or a comment. -/
theorem search_quiet {d : Delim} {a : Pattern Preview.Piece} {p : Piece} (hd : d ≠ .comment) (hp : p.isMarkup = false)
    (hrow : Row (p :: ps)) (hplain : p.PlainlyWritten) :
    (seq (literal d.opener) a).search (raws (p :: ps)) = (seq (literal d.opener) a).search (raws ps) := by
  cases p with
  | text raw => exact search_of_openerFree (Delim.openerFree_of_plain hrow.plain)
  | directive e body =>
    obtain rfl : e = .comment := by simpa [Piece.isMarkup] using hp
    obtain ⟨_, _, hinside, hwritten⟩ := hplain
    have hmark : Delim.comment.mark.1 ≠ d.mark.1 := by cases d <;> first | decide | exact (hd rfl).elim
    exact search_of_openerFree (Delim.openerFree_enclose hmark (hwritten.braceless_body hinside) (by simp))

/-- A pattern for tags finds nothing in a variable. -/
theorem search_variable {a : Pattern Preview.Piece} {start : Nat} {inner : List Token} {head : Head}
    (hlexes : Lexes false start body inner) (hhead : IsHead .var inner head) (hwritten : PlainlyWritten .var inner) :
    (seq (literal Delim.tag.opener) a).search (Delim.var.enclose body ++ rest) =
      (seq (literal Delim.tag.opener) a).search rest := by
  have hbraces := hwritten.braceless_body ((inside_iff_lexes (by decide)).2 hlexes)
  cases hhead with
  | @var _ _ _ p marked default fs hpath hdefault hfilters =>
    obtain ⟨gap, ending, rfl, hgap, hp, -⟩ := hwritten.variable hlexes (.var hpath hdefault hfilters)
    have hfront : ∀ c ∈ (gap ++ (marking marked ++ (p.dotted ++ ending))).head?, c ≠ '%' := by
      refine head?_append_of_blank hgap (by rintro c hc rfl; exact absurd hc (by decide)) fun c hc => ?_
      have hword := hp.head? marked ending
      rw [hc] at hword
      exact ne_of_isWordChar hword (by decide)
    exact search_of_openerFree (Delim.openerFree_enclose (by decide) hbraces fun _ h => hfront _ h rfl)

/-- A tag that a pattern for tags refuses is passed over. -/
theorem search_tag_of_refuses {a : Pattern Preview.Piece} (hbraces : body.Braceless)
    (h : (seq (literal Delim.tag.opener) a).Refuses (Delim.tag.enclose body ++ rest)) :
    (seq (literal Delim.tag.opener) a).search (Delim.tag.enclose body ++ rest) =
      (seq (literal Delim.tag.opener) a).search rest := by
  have hfree : Delim.tag.OpenerFree ('%' :: (body ++ Delim.tag.closer) ++ rest.take 1) := by
    refine Delim.openerFree_append ?_ (Delim.openerFree_take _ rest)
    exact List.not_mem_cons_of_ne_of_not_mem (by decide) (Delim.not_mem_append_closer hbraces)
  have hskip : (seq (literal Delim.tag.opener) a).search ('%' :: (body ++ Delim.tag.closer) ++ rest) =
      (seq (literal Delim.tag.opener) a).search rest := search_of_openerFree hfree
  rw [Delim.enclose_append] at h ⊢
  exact (search_of_refuses h).trans hskip

/-- A pattern for directives `d` finds `found` in each directive of a plainly written source, and nothing
around them. -/
theorem search_raws {d : Delim} {a : Pattern Preview.Piece} {found : Head → Option (List (Preview.Piece × Text))}
    (hd : d ≠ .comment)
    (hfinds : ∀ {e body start inner head}, e ≠ .comment → e.Closes body → Lexes false start body inner →
      IsHead e inner head → PlainlyWritten e inner → ∀ rest, (seq (literal d.opener) a).search (e.enclose body ++ rest) =
        (found head).toList ++ (seq (literal d.opener) a).search rest)
    (h : Respells ns ps heads qs) (hrow : Row ps) (hplain : ∀ p ∈ ps, p.PlainlyWritten) :
    (seq (literal d.opener) a).search (raws ps) = heads.filterMap found := by
  induction h with
  | nil => rfl
  | quiet hp _ ih =>
    obtain ⟨hhere, hplain⟩ := List.forall_mem_cons.1 hplain
    rw [search_quiet hd hp hrow hhere, ih (row_cons.1 hrow).2.2 hplain]
  | @markup e body _ head _ _ _ _ ps _ heads he hlexes hhead _ _ _ _ ih =>
    obtain ⟨hcloses, -, hmore⟩ := row_cons.1 hrow
    obtain ⟨hhere, hplain⟩ := List.forall_mem_cons.1 hplain
    obtain ⟨_, _, hlexes, hhead, hwritten⟩ := hhere.head he hlexes hhead
    rw [raws_cons, Piece.raw, hfinds he hcloses hlexes hhead hwritten, ih hmore hplain, List.filterMap_cons]
    cases found head <;> rfl

/-- What the variable pattern finds in a directive. -/
def Grammar.Head.variableCaptures : Head → Option (List (Preview.Piece × Text))
  | .var p default _ _ => some ((.name, p.dotted) :: defaultCaptures default)
  | _ => none

/-- **The variable pattern finds the variables of a source, in their order.** -/
theorem finds_variables (h : Respells ns ps heads qs) (hrow : Row ps) (hplain : ∀ p ∈ ps, p.PlainlyWritten) :
    Preview.variablePattern.search (raws ps) = heads.filterMap Head.variableCaptures := by
  refine search_raws (d := .var) (by decide) ?_ h hrow hplain
  intro e body start inner head he _ hlexes hhead hwritten rest
  have hbraces := hwritten.braceless_body ((inside_iff_lexes he).2 hlexes)
  cases e with
  | comment => exact (he rfl).elim
  | tag =>
    have hnone : head.variableCaptures = none := by cases hhead <;> rfl
    rw [hnone]
    exact search_of_openerFree (Delim.openerFree_enclose (by decide) hbraces (by simp))
  | var =>
    cases hhead with
    | @var _ _ _ p marked default fs hpath hdefault hfilters =>
      obtain ⟨gap, ending, rfl, hgap, hp, hending⟩ := hwritten.variable hlexes (.var hpath hdefault hfilters)
      have hending' : ∀ c ∈ ending, c ≠ '}' := fun c hc => (hbraces c (by simp [hc])).2
      exact search_of_prefers (by simp [Delim.enclose, Delim.opener]) (variablePattern_prefers hgap hp hending hending')

/-- **The loop pattern finds the loops over plain names of a source, in their order.** -/
theorem finds_loops (h : Respells ns ps heads qs) (hrow : Row ps) (hplain : ∀ p ∈ ps, p.PlainlyWritten) :
    Preview.loopPattern.search (raws ps) = heads.filterMap fun head => head.collection?.map fun name => [(.name, name)] := by
  refine search_raws (d := .tag) (by decide) ?_ h hrow hplain
  intro e body start inner head he hcloses hlexes hhead hwritten rest
  cases e with
  | comment => exact (he rfl).elim
  | var =>
    have hnone : head.collection? = none := by cases hhead; rfl
    rw [hnone]
    exact search_variable hlexes hhead hwritten
  | tag =>
    have hbraces := hwritten.braceless_body ((inside_iff_lexes he).2 hlexes)
    cases hcollection : head.collection? with
    | none => exact search_tag_of_refuses hbraces (loopPattern_refuses hlexes hcloses hhead hcollection)
    | some name =>
      obtain ⟨x, scope, rfl⟩ := Head.collection?_eq_some hcollection
      obtain ⟨g, g₁, g₂, g₃, g₄, marked, rfl, hblank, hne, hx, hp⟩ := hwritten.loop hlexes hhead
      have hdotted : Path.dotted ⟨name, [], scope⟩ = name := by simp [dotted_eq]
      rw [hdotted]
      exact search_of_prefers (by simp [Delim.enclose, Delim.opener])
        (loopPattern_prefers hblank hne hx (hp name (by simp [Path.segments])))

end

/-! ## Conditions -/

mutual

/-- The tags that open conditional blocks, as they are written. -/
def Node.ifTags : Node → List Text
  | .ifBlock _ tag body more => tag.raw :: (Template.ifTags body ++ more.ifTags)
  | .forBlock _ _ _ body => Template.ifTags body
  | .text _ | .comment _ | .var _ | .unsupported _ => []

def Alternative.ifTags : Alternative → List Text
  | .endif => []
  | .otherwise body => Template.ifTags body
  | .elseif _ _ body more => Template.ifTags body ++ more.ifTags

def Template.ifTags : Template → List Text
  | [] => []
  | n :: t => n.ifTags ++ Template.ifTags t

end

def Grammar.Phrase.ifTags : Phrase → List Text
  | .node n => n.ifTags
  | .nodes t => Template.ifTags t
  | .alternative a => a.ifTags

/-- In the pieces `ps` of a plainly written source the condition pattern finds what it finds in `tags`,
whatever comes after. -/
def Conditions (ps : List Piece) (tags : List Text) : Prop :=
  (∀ p ∈ ps, p.PlainlyWritten) → ∀ more, Row (ps ++ more) → Preview.conditionPattern.search (raws (ps ++ more)) =
    tags.flatMap Preview.conditionPattern.search ++ Preview.conditionPattern.search (raws more)

section
variable {body rest raw : Text} {d : Delim} {ps qs : List Piece} {tags tags' : List Text} {head : Head} {span : Span}

theorem Conditions.append (h : Conditions ps tags) (h' : Conditions qs tags') : Conditions (ps ++ qs) (tags ++ tags') := by
  intro hplain more hrow
  obtain ⟨hps, hqs⟩ := List.forall_mem_append.1 hplain
  rw [List.append_assoc] at hrow ⊢
  have hmore : Row (qs ++ more) := ⟨(List.forall_mem_append.1 hrow.1).2, hrow.2.right_of_append⟩
  rw [h hps _ hrow, h' hqs _ hmore, List.flatMap_append, List.append_assoc]

theorem conditions_quiet {p : Piece} (hp : p.isMarkup = false) : Conditions [p] [] :=
  fun hplain _ hrow => search_quiet (by decide) hp hrow (hplain p (by simp))

/-- How a pattern for tags matches a tag does not hang on what comes after. -/
theorem tagPattern_ways {word : Text} {parts : List (Pattern Preview.Piece)}
    (hparts : (Preview.blanks :: literal word :: oneOrMore isWhiteSpace :: parts).all (avoids '%')) (hbody : '%' ∉ body) :
    ∃ css : List (List (Preview.Piece × Text)), ∀ rest,
      (Preview.tagPattern word parts).ways (Delim.tag.enclose body ++ rest) = css.map fun cs => ⟨cs, rest⟩ := by
  obtain ⟨css, hcss⟩ := ways_closed hparts hbody '}'
  refine ⟨css, fun rest => ?_⟩
  have htext : Delim.tag.enclose body ++ rest = Delim.tag.opener ++ (body ++ '%' :: '}' :: rest) := by
    simp [Delim.enclose, Delim.closer, Delim.mark]
  have hpattern : Preview.tagPattern word parts = seq (literal Delim.tag.opener)
      (Pattern.sequence (Preview.blanks :: literal word :: oneOrMore isWhiteSpace :: parts ++ [literal ['%', '}']])) := rfl
  rw [htext, hpattern, ways_seq, ways_literal, List.flatMap_singleton, hcss, List.map_map]
  rfl

/-- **What the condition pattern finds in a tag, it finds in the tag alone.** -/
theorem conditionPattern_search_tag (hcloses : Delim.tag.Closes body) (hbraces : body.Braceless) (rest : Text) :
    Preview.conditionPattern.search (Delim.tag.enclose body ++ rest) =
      Preview.conditionPattern.search (Delim.tag.enclose body) ++ Preview.conditionPattern.search rest := by
  obtain ⟨found, hfound⟩ : ∃ found : List (List (Preview.Piece × Text)), ∀ rest,
      Preview.conditionPattern.search (Delim.tag.enclose body ++ rest) =
        found ++ Preview.conditionPattern.search rest := by
    by_cases hmark : '%' ∈ body
    · refine ⟨[], fun rest => search_tag_of_refuses hbraces (refuses_iff.2 fun used after htext haccepts => ?_)⟩
      obtain ⟨-, -, -, -, -, -, hchars⟩ := tagPattern_body (by decide) (by decide) hcloses htext haccepts
      exact hchars '%' (by decide) (by decide) (by decide) hmark
    · obtain ⟨css, hcss⟩ : ∃ css : List (List (Preview.Piece × Text)), ∀ rest,
          Preview.conditionPattern.ways (Delim.tag.enclose body ++ rest) = css.map fun cs => ⟨cs, rest⟩ :=
        tagPattern_ways (by decide) hmark
      cases css with
      | nil => exact ⟨[], fun rest => search_tag_of_refuses hbraces (hcss rest)⟩
      | cons cs css =>
        refine ⟨[cs], fun rest => search_of_prefers (by simp [Delim.enclose, Delim.opener]) ?_⟩
        exact congrArg List.head? (hcss rest)
  have halone := hfound []
  rw [List.append_nil, search_nil, List.append_nil] at halone
  rw [hfound, halone]

theorem conditions_if {c : Expr} (h : pieces.directive .tag ps (.ifTag c) span) : Conditions ps [span.raw] := by
  obtain ⟨body, start, inner, rfl, hraw, hlexes, hhead⟩ := h
  intro hplain more hrow
  obtain ⟨_, _, hlexes, -, hwritten⟩ := (hplain _ (by simp)).head (by decide) hlexes hhead
  have hbraces := hwritten.braceless_body ((inside_iff_lexes (by decide)).2 hlexes)
  rw [List.flatMap_singleton, hraw]
  exact conditionPattern_search_tag (row_cons.1 hrow).1 hbraces (raws more)

theorem conditions_other (h : pieces.directive d ps head span) (hd : d ≠ .comment) (hother : ∀ c, head ≠ .ifTag c) :
    Conditions ps [] := by
  obtain ⟨body, start, inner, rfl, -, hlexes, hhead⟩ := h
  intro hplain more hrow
  obtain ⟨_, _, hlexes, hhead, hwritten⟩ := (hplain _ (by simp)).head hd hlexes hhead
  have hbraces := hwritten.braceless_body ((inside_iff_lexes hd).2 hlexes)
  cases d with
  | comment => exact (hd rfl).elim
  | var => exact search_variable hlexes hhead hwritten
  | tag =>
    exact search_tag_of_refuses hbraces (conditionPattern_refuses hlexes (row_cons.1 hrow).1 hhead hother)

/-- **The condition pattern finds what stands in the tags of conditions, in their order, and nothing else.** -/
theorem conditions_blocks {phrase : Phrase} (h : Blocks pieces ps phrase) : Conditions ps phrase.ifTags := by
  induction h with
  | nil => exact fun _ _ _ => rfl
  | cons _ _ ihf ihm => exact ihf.append ihm
  | text h => cases h; exact conditions_quiet rfl
  | comment h => obtain ⟨body, rfl, -⟩ := h; exact conditions_quiet rfl
  | var h | unsupported h | endif h => exact conditions_other h (by decide) (by simp)
  | ifBlock htag _ _ ihb ihm => exact (conditions_if htag).append (ihb.append ihm)
  | elseif htag _ _ ihb ihm => exact (conditions_other htag (by decide) (by simp)).append (ihb.append ihm)
  | forBlock htag _ hclose ihb | otherwise htag _ hclose ihb =>
    have hall := (conditions_other htag (by decide) (by simp)).append
      (ihb.append (conditions_other hclose (by decide) (by simp)))
    rwa [List.nil_append, List.append_nil] at hall

end

/-! ## Previews -/

/-- The entry of a variable: its dotted name with its default, or with nothing if it has none. -/
def Grammar.Head.variable? : Head → Option (Text × Preview.Value)
  | .var p (some (.string value)) _ _ => some (p.dotted, .text value)
  | .var p _ _ _ => some (p.dotted, .text [])
  | _ => none

/-- The entries of the variables of a template, at all levels, in the order they stand in the source. -/
def Template.variables (t : Template) : List (Text × Preview.Value) := t.heads.filterMap Head.variable?

/-- The entries of the names that loops of a template run over as they are. -/
def Template.collections (t : Template) : List (Text × Preview.Value) :=
  t.heads.filterMap fun head => head.collection?.map fun name => (name, .noItems)

/-- **A preview agrees with the template on a plainly written source.** If a source can be read as a template
and is plainly written, its preview starts with the variables of the template, at all levels and in the
order of the source, each at its first occurrence and with the default it has there; then come the
collections that loops run over as they are, each at its first occurrence, unless their name is there
already. To these only conditions are added, and what is found for them stands in the tags of conditions:
loops over a property, over a filtered collection or over numbers add nothing. -/
theorem Preview.ofSource_of_plain {source ns : Text} {t : Template} (hparse : Template.parse source ns = .ok t)
    (hplain : source.PlainlyWritten) :
    Preview.ofSource source = collect conditionPattern (fun captures => .text (piece .value captures)) source
      (firsts t.variables ++ firsts (unseen (firsts t.variables) t.collections)) ∧
    conditionPattern.search source = t.ifTags.flatMap conditionPattern.search := by
  obtain ⟨ps, hrow, rfl, hblocks, hpieces⟩ := Template.plain_pieces_of_parse hparse hplain
  have hns : Dialect.defaultNamespace.isWord := by decide
  obtain ⟨qs, hrespells, -⟩ := respelled_blocks hns hblocks hrow.1
  have hvariables : ((variablePattern.search (raws ps)).map fun captures =>
      (piece .name captures, Value.text (piece .value captures))) = t.variables := by
    rw [finds_variables hrespells hrow hpieces, List.map_filterMap, Template.variables]
    refine List.filterMap_congr fun head _ => ?_
    cases head with
    | var p default => rcases default with _ | (value | _ | _) <;> rfl
    | _ => rfl
  have hcollections : ((loopPattern.search (raws ps)).map fun captures =>
      (piece .name captures, Value.noItems)) = t.collections := by
    rw [finds_loops hrespells hrow hpieces, List.map_filterMap, Template.collections]
    refine List.filterMap_congr fun head _ => ?_
    cases head.collection? <;> rfl
  have hfirst : collect variablePattern (fun captures => .text (piece .value captures)) (raws ps) [] =
      firsts t.variables := by
    rw [collect_eq, hvariables]
    simp [unseen]
  have hsecond : collect loopPattern (fun _ => .noItems) (raws ps) (firsts t.variables) =
      firsts t.variables ++ firsts (unseen (firsts t.variables) t.collections) := by
    rw [collect_eq, hcollections]
  refine ⟨by rw [Preview.ofSource, hfirst, hsecond], ?_⟩
  have hconditions := conditions_blocks hblocks hpieces [] (by rwa [List.append_nil])
  rwa [List.append_nil, raws_nil, search_nil, List.append_nil] at hconditions

/-- A variable named like the marker, a variable that is there twice, a marked loop and inside it loops over
a property, over a filtered collection and over numbers, and a condition on a string with a mark in it. -/
theorem Preview.ofSource_of_plain_marker : ∃ source, source =
      Delim.var.enclose "var:\"x\"".toList ++ Delim.tag.enclose " for i in var:list ".toList ++
      Delim.var.enclose " var:i.n | f:'\\'' ".toList ++ Delim.tag.enclose "for j in i.all".toList ++
      Delim.tag.enclose "endfor".toList ++ Delim.tag.enclose "for j in a | f".toList ++
      Delim.tag.enclose "endfor".toList ++ Delim.tag.enclose "for j in range(1, 2)".toList ++
      Delim.tag.enclose "endfor".toList ++ Delim.tag.enclose "endfor".toList ++
      Delim.tag.enclose "if b == '2'".toList ++ Delim.tag.enclose "if c == '%'".toList ++
      Delim.tag.enclose "endif".toList ++ Delim.tag.enclose "endif".toList ++
      Delim.comment.enclose "a".toList ++ Delim.var.enclose "i.n : \"y\"".toList ∧
    ∃ t, (Template.parse source "params".toList = .ok t ∧ source.PlainlyWritten) ∧
      Preview.ofSource source = [("var".toList, .text "x".toList), ("i.n".toList, .text []), ("list".toList, .noItems),
        ("b".toList, .text "2".toList)] ∧
      conditionPattern.search source = t.ifTags.flatMap conditionPattern.search := by
  have hpreview : ∀ (source : Text) (entries preview : Preview), source.PlainlyWritten →
      (Template.parse source "params".toList).toOption.map (fun t =>
        firsts t.variables ++ firsts (unseen (firsts t.variables) t.collections)) = some entries →
      collect conditionPattern (fun captures => .text (piece .value captures)) source entries = preview →
      ∃ t, (Template.parse source "params".toList = .ok t ∧ source.PlainlyWritten) ∧
        Preview.ofSource source = preview ∧
        conditionPattern.search source = t.ifTags.flatMap conditionPattern.search := by
    intro source entries preview hplain hentries hcollect
    obtain ⟨t, ht, rfl⟩ := exists_ok_of_toOption hentries
    obtain ⟨hsource, hconditions⟩ := Preview.ofSource_of_plain ht hplain
    exact ⟨t, ⟨ht, hplain⟩, hsource.trans hcollect, hconditions⟩
  refine ⟨_, rfl, hpreview _ [("var".toList, .text "x".toList), ("i.n".toList, .text []), ("list".toList, .noItems)] _
    ?_ ?_ ?_⟩ <;> decide +kernel

end MailDialect
