import MailDialect.Proofs.NormalForm
import MailDialect.Proofs.Unmarked
import MailDialect.Proofs.Writing

/-!
# Templates as they are written

Every directive of a template is written as a directive that says what its normal form says
(`rewritten_var`, `rewritten_condition`, `rewritten_for`), and whatever is passed on stands as it stood.
Main statement: the pieces of a template turn one by one into pieces that spell its normal form
(`rewrites_blocks`), and these come apart again as they did before (`Row.kin`).
-/

namespace MailDialect

open Grammar

/-! ## Paths and conditions -/

section
variable {d : Delim} {ns : Text} {ts : List Token}

/-- A path is written as the path with the namespace before it, which is read as such unless the
namespace is reserved. -/
theorem spells_path {p : Path} {marked : Bool} (hns : ns.isWord) (h : IsPath ts p marked) (hts : Good d ts) :
    Spells d false false EndsWord (p.print ns) fun ts => IsName ns → IsPath ts (p.qualify ns) false := by
  obtain ⟨hbase, hfields⟩ := fits_of_isPath h hts
  rw [Path.print_eq]
  obtain ⟨base, fields, scope⟩ := p
  cases scope with
  | param => exact spells_dotted hns (List.forall_mem_cons.2 ⟨.inl hbase.1, hfields⟩)
  | loopLocal | namespaced => exact (spells_dotted hbase.1 hfields).imp fun _ hpath _ => hpath hbase

theorem spells_path_filters {us : List Token} {p : Path} {marked : Bool} {fs : List Filter} (hns : ns.isWord)
    (hpath : IsPath ts p marked) (hfilters : IsFilters us fs) (hts : Good d (ts ++ us)) :
    Spells d false false EndsLexeme (p.print ns ++ Filter.printAll fs) fun ts =>
      ∃ us vs, ts = us ++ vs ∧ (IsName ns → IsPath us (p.qualify ns) false) ∧ IsFilters vs fs :=
  (spells_path hns hpath hts.append.1).append (spells_filters hfilters hts.append.2)
    fun _ hrest => (endsLexeme_printAll hrest).endsWord

theorem spells_keyword {w : Text} {k : Keyword} (hw : w.isWord) (hk : Keyword.ofWord? w = some k) :
    Spells d false false (fun rest => ∃ more, rest = ' ' :: more) w fun ts => ∃ t, ts = [t] ∧ t.kind = .keyword k := by
  refine ((spells_word hw).before ?_).imp ?_
  · rintro _ ⟨more, rfl⟩ c ⟨⟩; decide
  · rintro _ ⟨o, rfl⟩
    exact ⟨_, rfl, by simp [Lexeme.wordKind, hk]⟩

/-- A condition is written as the condition with the namespace before its parameters, and no other:
the parts of a condition need no parentheses but those that were there. No path is marked any more. -/
theorem spells_expr {level : Level} {e : Expr} (hns : ns.isWord) (h : IsExpr level ts e) (hts : Good d ts) :
    Spells d false false EndsLexeme (e.print ns) fun ts =>
      IsName ns → IsExpr level ts (e.qualify ns) ∧ Settled ts := by
  induction h with
  | path hpath =>
    exact ((spells_path hns hpath hts).before fun _ => EndsLexeme.endsWord).imp fun _ h hname =>
      ⟨.path (h hname), settled_path (h hname)⟩
  | filtered hpath hfilters hne =>
    refine (spells_path_filters hns hpath hfilters hts).imp ?_
    rintro _ ⟨us, vs, rfl, hus, hvs⟩ hname
    exact ⟨.filtered (hus hname) hvs hne, (settled_path (hus hname)).append (settled_filters hvs)⟩
  | literal hliteral => exact (spells_literal hliteral hts).imp fun _ h _ => ⟨.literal h, settled_literal h⟩
  | group _ _ _ ih =>
    have hinner := (ih hts.tail.append.1).closing
    refine ((Spells.punct_cons (c := '(') (p := .lparen) (by simp) rfl hinner).before fun _ _ => trivial).imp ?_
    rintro _ ⟨t, _, rfl, ht, us, t', rfl, hus, ht'⟩ hname
    obtain ⟨hexpr, hsettled⟩ := hus hname
    exact ⟨.group ht hexpr ht', (hsettled.snoc ht' (by simp)).cons ht (by simp)⟩
  | single _ ih => exact (ih hts).imp fun _ h hname => ⟨.single (h hname).1, (h hname).2⟩
  | affirmed _ ih => exact (ih hts).imp fun _ h hname => ⟨.affirmed (h hname).1, (h hname).2⟩
  | conjunct _ ih => exact (ih hts).imp fun _ h hname => ⟨.conjunct (h hname).1, (h hname).2⟩
  | disjunct _ ih => exact (ih hts).imp fun _ h hname => ⟨.disjunct (h hname).1, (h hname).2⟩
  | @compare operator ts us op a b _ _ _ iha ihb =>
    refine ((iha hts.append.1).join (spells_comparison op) (ihb hts.append.2.tail)).imp ?_
    rintro _ ⟨us, _, vs, rfl, hus, ⟨o, rfl⟩, hvs⟩ hname
    obtain ⟨hleft, hl⟩ := hus hname
    obtain ⟨hright, hr⟩ := hvs hname
    exact ⟨@IsExpr.compare ⟨_, op.spelling, o⟩ us vs op _ _ hleft rfl hright, hl.append (hr.cons rfl (by simp))⟩
  | not _ _ ih =>
    refine (Spells.word_cons (w := ['n', 'o', 't']) (by decide) (ih hts.tail)).imp ?_
    rintro _ ⟨t, us, rfl, ht, -, hus⟩ hname
    exact ⟨.not ht (hus hname).1, (hus hname).2.cons ht (by decide)⟩
  | and _ _ _ iha ihb =>
    have hword : Spells d false false _ Connective.and.spelling _ := spells_keyword (by decide) rfl
    refine ((iha hts.append.1).join hword (ihb hts.append.2.tail)).imp ?_
    rintro _ ⟨us, _, vs, rfl, hus, ⟨t, rfl, ht⟩, hvs⟩ hname
    obtain ⟨hleft, hl⟩ := hus hname
    obtain ⟨hright, hr⟩ := hvs hname
    exact ⟨.and hleft ht hright, hl.append (hr.cons ht (by simp))⟩
  | or _ _ _ iha ihb =>
    have hword : Spells d false false _ Connective.or.spelling _ := spells_keyword (by decide) rfl
    refine ((iha hts.append.1).join hword (ihb hts.append.2.tail)).imp ?_
    rintro _ ⟨us, _, vs, rfl, hus, ⟨t, rfl, ht⟩, hvs⟩ hname
    obtain ⟨hleft, hl⟩ := hus hname
    obtain ⟨hright, hr⟩ := hvs hname
    exact ⟨.or hleft ht hright, hl.append (hr.cons ht (by simp))⟩

/-- The first words of a loop before what it runs over. -/
theorem Spells.for_cons {name x : Text} {b : Bool} {F : Text → Prop} {P : List Token → Prop} (hname : IsName name)
    (h : Spells d false b F x P) :
    Spells d false b F (['f', 'o', 'r', ' '] ++ name ++ [' ', 'i', 'n', ' '] ++ x) fun ts =>
      ∃ word var second us, ts = word :: var :: second :: us ∧ word.kind = .keyword .kwFor ∧ var.kind = .name ∧
        var.text = name ∧ second.kind = .keyword .kwIn ∧ P us := by
  have hin := Spells.word_cons (b := false) (w := ['i', 'n']) (by decide) h
  have hfor := Spells.word_cons (b := false) (w := ['f', 'o', 'r']) (by decide)
    (Spells.word_cons (b := false) hname.1 hin)
  have htext : ['f', 'o', 'r', ' '] ++ name ++ [' ', 'i', 'n', ' '] ++ x =
      ['f', 'o', 'r'] ++ ' ' :: (name ++ ' ' :: (['i', 'n'] ++ ' ' :: x)) := by
    simp
  rw [htext]
  refine hfor.imp ?_
  rintro _ ⟨t, _, rfl, ht, -, t', _, rfl, ht', hsame, t'', us, rfl, ht'', -, hus⟩
  exact ⟨t, t', t'', us, rfl, ht, ht'.trans hname.wordKind, hsame, ht'', hus⟩

/-- A loop over a collection is written as the loop over the collection with the namespace before it. -/
theorem spells_loop {us : List Token} {name : Text} {p : Path} {marked : Bool} {fs : List Filter} (hns : ns.isWord)
    (hname : IsName name) (hpath : IsPath ts p marked) (hfilters : IsFilters us fs) (hts : Good d (ts ++ us)) :
    Spells d false false EndsLexeme
      (['f', 'o', 'r', ' '] ++ name ++ [' ', 'i', 'n', ' '] ++ p.print ns ++ Filter.printAll fs) fun ts =>
        ∃ word var second us vs, ts = word :: var :: second :: (us ++ vs) ∧ word.kind = .keyword .kwFor ∧
          var.kind = .name ∧ var.text = name ∧ second.kind = .keyword .kwIn ∧
          (IsName ns → IsPath us (p.qualify ns) false) ∧ IsFilters vs fs := by
  rw [List.append_assoc _ (p.print ns)]
  refine (Spells.for_cons hname (spells_path_filters hns hpath hfilters hts)).imp ?_
  rintro _ ⟨t, t', t'', _, rfl, ht, ht', hsame, ht'', us, vs, rfl, hus, hvs⟩
  exact ⟨t, t', t'', us, vs, rfl, ht, ht', hsame, ht'', hus, hvs⟩

/-! ## Defaults -/

theorem isFilters_append {us : List Token} {fs gs : List Filter} (h : IsFilters ts fs) (h' : IsFilters us gs) :
    IsFilters (ts ++ us) (fs ++ gs) := by
  induction h with
  | nil => exact h'
  | cons hbar hfilter _ ih =>
    rw [List.cons_append, List.append_assoc]
    exact .cons hbar hfilter ih

theorem endsLexeme_printDefault {v : Variable} {rest : Text} (h : EndsLexeme rest) :
    EndsLexeme (v.printDefault ++ rest) := by
  unfold Variable.printDefault
  split
  · exact h
  · exact h
  · exact .cons _ (by decide)

theorem spells_default {v : Variable} (h : IsDefault ts v.default) (hts : Good d ts) :
    Spells d false false EndsLexeme v.printDefault (IsFilters · v.defaultFilters) := by
  obtain ⟨path, default, filters, marked, span⟩ := v
  have hnone : Spells d false false EndsLexeme [] (IsFilters · []) :=
    (spells_nil.before fun _ _ => trivial).imp fun _ hnil => hnil ▸ .nil
  cases h with
  | none => exact hnone
  | @some colon value text o hcolon =>
    cases value with
    | nil => exact hnone
    | cons c value =>
      have hvalue := spells_literal (@IsLiteral.string (c :: value) text o) hts.tail
      have harg := Spells.punct_cons (b := false) (c := ':') (p := .colon) (by simp) rfl hvalue
      have hfilter := (spells_word (b := false) (x := Dialect.defaultFilter) (by decide)).append harg
        (by rintro rest - c ⟨⟩; decide)
      refine (Spells.punct_cons (c := '|') (p := .pipe) (by simp) rfl hfilter).imp ?_
      rintro _ ⟨bar, _, rfl, hbar, _, _, rfl, ⟨o, rfl⟩, colon, us, rfl, hcolon, hus⟩
      have hname : IsFilter _ ⟨Dialect.defaultFilter, .colon, [.string (c :: value)]⟩ :=
        @IsFilter.colon ⟨.name, Dialect.defaultFilter, o⟩ colon us _ rfl hcolon (.one hus)
      have hall := IsFilters.cons hbar hname .nil
      rw [List.append_nil] at hall
      exact hall

end

/-! ## Directives -/

/-- The text `raw` is one whole directive, whose tokens have `P`. -/
def Enclosed (d : Delim) (raw : Text) (P : List Token → Prop) : Prop :=
  ∃ body start inner, raw = d.enclose body ∧ d.Closes body ∧ Lexes false start body inner ∧ P inner

/-- The directive `raw` says `head`. -/
def Written (d : Delim) (head : Head) (raw : Text) : Prop := Enclosed d raw (IsHead d · head)

section
variable {d : Delim} {head : Head} {raw : Text} {P Q : List Token → Prop}

theorem Enclosed.imp (h : Enclosed d raw P) (himp : ∀ ts, P ts → Q ts) : Enclosed d raw Q := by
  obtain ⟨body, start, inner, hraw, hcloses, hlexes, hinner⟩ := h
  exact ⟨body, start, inner, hraw, hcloses, hlexes, himp inner hinner⟩

theorem Enclosed.whole (h : Enclosed d raw P) : Enclosed d raw fun _ => True := h.imp fun _ _ => trivial

theorem Written.good (h : Written d head raw) : ∃ inner, Good d inner ∧ IsHead d inner head := by
  obtain ⟨body, start, inner, -, hcloses, hlexes, hhead⟩ := h
  exact ⟨inner, ⟨⟨_, hlexes.fitsAll⟩, hlexes.harmless hcloses⟩, hhead⟩

theorem Spells.enclosed {b : Bool} {F : Text → Prop} {body : Text} (h : Spells d false b F body P) (hend : F []) :
    Enclosed d (d.enclose body) P := by
  obtain ⟨inner, hinner, hlex⟩ := h.lexes 0
  refine ⟨body, 0, inner, rfl, h.clear.closes, ?_, hinner⟩
  simpa using hlex [] [] hend (.blank (by simp))

theorem Spells.enclosed_tag {body : Text} (h : Spells .tag false false EndsLexeme body P) :
    Enclosed .tag (printTag body) P :=
  h.padded.enclosed trivial

end

theorem Variable.span_norm (ns : Text) (v : Variable) : (v.norm ns).span = ⟨v.print ns, v.span.offset⟩ := by
  by_cases hkept : v.isKept
  · rw [Variable.norm, if_pos hkept, Variable.print_of_isKept hkept]
  · rw [Variable.norm, if_neg hkept]

/-- The text `raw` is one whole directive, which says `head` unless the namespace is reserved. -/
def Rewritten (d : Delim) (ns : Text) (head : Head) (raw : Text) : Prop :=
  Enclosed d raw fun ts => IsName ns → IsHead d ts head

section
variable {d : Delim} {ns raw : Text} {head : Head}

theorem Rewritten.written (h : Rewritten d ns head raw) (hns : IsName ns) : Written d head raw :=
  h.imp fun _ hhead => hhead hns

theorem Written.rewritten (h : Written d head raw) : Rewritten d ns head raw := h.imp fun _ hhead _ => hhead

end

section
variable {ns : Text} (hns : ns.isWord)
include hns

/-- A variable is written as its normal form. -/
theorem rewritten_var {v : Variable} (h : Written .var (.var v.path v.default v.filters v.marked) v.span.raw) :
    Rewritten .var ns (.var (v.norm ns).path (v.norm ns).default (v.norm ns).filters (v.norm ns).marked)
      (v.print ns) := by
  by_cases hkept : v.isKept
  · rw [Variable.norm, if_pos hkept, Variable.print_of_isKept hkept]
    exact h.rewritten
  · have hprint : v.print ns = Delim.var.enclose (v.path.print ns ++ v.printDefault ++ Filter.printAll v.filters) :=
      if_neg hkept
    rw [Variable.norm, if_neg hkept, hprint]
    obtain ⟨inner, hgood, hhead⟩ := h.good
    cases hhead with
    | var hpath hdefault hfilters =>
      obtain ⟨hfront, hback⟩ := hgood.append
      have hd := (spells_path hns hpath hfront.append.1).append (spells_default hdefault hfront.append.2)
        fun _ hrest => (endsLexeme_printDefault hrest).endsWord
      refine ((hd.append (spells_filters hfilters hback) fun _ => endsLexeme_printAll).imp ?_).enclosed .nil
      rintro _ ⟨_, vs, rfl, ⟨us, ws, rfl, hus, hws⟩, hvs⟩ hname
      have hall := IsHead.var (hus hname) .none (isFilters_append hws hvs)
      simpa using hall

/-- A word and a condition make a whole tag. -/
theorem enclosed_condition {c : Expr} {word : Text} {k : Keyword} {us : List Token} (hword : word.isWord)
    (hk : Keyword.ofWord? word = some k) (hc : IsExpr .condition us c) (hus : Good .tag us) :
    Enclosed .tag (printTag (word ++ ' ' :: c.print ns)) fun ts => ∃ t us, ts = t :: us ∧ t.kind = .keyword k ∧
      t.text = word ∧ (IsName ns → IsExpr .condition us (c.qualify ns) ∧ Settled us) := by
  refine ((Spells.word_cons hword (spells_expr hns hc hus)).imp ?_).enclosed_tag
  rintro _ ⟨t, us, rfl, ht, htext, hus⟩
  exact ⟨t, us, rfl, by simpa [Lexeme.wordKind, hk] using ht, htext, hus⟩

/-- The first tag of a branch is written as the tag with the normal form of its condition. -/
theorem rewritten_condition {c : Expr} {tag : Span} {head : Expr → Head} {word : Text} {k : Keyword}
    (hword : word.isWord) (hk : Keyword.ofWord? word = some k) (h : Written .tag (head c) tag.raw)
    (hinv : ∀ {ts}, IsHead .tag ts (head c) → ∃ front us, ts = front ++ us ∧ IsExpr .condition us c)
    (hhead : ∀ {t us c'}, t.kind = .keyword k → IsExpr .condition us c' → IsHead .tag (t :: us) (head c')) :
    Rewritten .tag ns (head (c.norm ns)) (c.printTag ns word tag) := by
  by_cases hkept : c.filters.any Filter.isUnsupported
  · rw [Expr.norm, if_pos hkept, Expr.printTag, if_pos hkept]
    exact h.rewritten
  · rw [Expr.norm, if_neg hkept, Expr.printTag, if_neg hkept]
    obtain ⟨inner, hgood, hinner⟩ := h.good
    obtain ⟨front, us, rfl, hc⟩ := hinv hinner
    refine (enclosed_condition hns hword hk hc hgood.append.2).imp ?_
    rintro _ ⟨t, us, rfl, ht, -, hus⟩ hname
    exact hhead ht (hus hname).1

theorem rewritten_if {c : Expr} {tag : Span} (h : Written .tag (.ifTag c) tag.raw) :
    Rewritten .tag ns (.ifTag (c.norm ns)) (c.printTag ns ['i', 'f'] tag) := by
  refine rewritten_condition hns (by decide) (by decide) h (fun hinner => ?_) .ifTag
  cases hinner with
  | ifTag _ hc => exact ⟨[_], _, rfl, hc⟩

theorem rewritten_elseif {c : Expr} {tag : Span} (h : Written .tag (.elseifTag c) tag.raw) :
    Rewritten .tag ns (.elseifTag (c.norm ns)) (c.printTag ns ['e', 'l', 'i', 'f'] tag) := by
  refine rewritten_condition hns (by decide) (by decide) h (fun hinner => ?_) .elseif
  cases hinner with
  | elseif _ hc => exact ⟨[_], _, rfl, hc⟩
  | elseIf _ _ hc => exact ⟨[_, _], _, rfl, hc⟩

/-- The first tag of a loop is written as the tag with the normal form of what it runs over. -/
theorem rewritten_for {name : Text} {source : LoopSource} {tag : Span}
    (h : Written .tag (.forTag name source) tag.raw) :
    Rewritten .tag ns (.forTag name (source.norm ns)) (source.printTag ns name tag) := by
  cases source with
  | range bounds => exact h.rewritten
  | collection p fs =>
    by_cases hkept : fs.any Filter.isUnsupported
    · simp only [LoopSource.norm, LoopSource.printTag, hkept, if_true]
      exact h.rewritten
    · simp only [LoopSource.norm, LoopSource.printTag, hkept, if_false, Bool.false_eq_true]
      obtain ⟨inner, hgood, hhead⟩ := h.good
      generalize hsource : LoopSource.collection p fs = source at hhead
      cases hhead with
      | @forTag _ word _ _ _ _ hname _ hloop =>
        cases hloop with
        | range => cases hsource
        | collection hpath hfilters =>
          cases hsource
          have hvar := hgood.tail.isName hname
          refine ((spells_loop hns hvar hpath hfilters hgood.tail.tail.tail).imp ?_).enclosed_tag
          rintro _ ⟨t, t', t'', us, vs, rfl, ht, ht', hsame, ht'', hus, hvs⟩ hfree
          rw [← hsame]
          exact .forTag ht ht' ht'' (.collection (hus hfree) hvs)

end

/-- A tag that holds only a word. -/
theorem written_word {word : Text} {k : Keyword} {head : Head} (hword : word.isWord)
    (hk : Keyword.ofWord? word = some k) (hhead : ∀ {t : Token}, t.kind = .keyword k → IsHead .tag [t] head) :
    Written .tag head (printTag word) := by
  refine (((spells_word hword).before fun _ => EndsLexeme.endsWord).imp ?_).enclosed_tag
  rintro _ ⟨o, rfl⟩
  exact hhead (by simp [Lexeme.wordKind, hk])

theorem written_else : Written .tag .elseTag (printTag ['e', 'l', 's', 'e']) :=
  written_word (by decide) rfl .elseTag

theorem written_endif : Written .tag .endifTag (printTag ['e', 'n', 'd', 'i', 'f']) :=
  written_word (by decide) rfl .endifTag

theorem written_endfor : Written .tag .endforTag (printTag ['e', 'n', 'd', 'f', 'o', 'r']) :=
  written_word (by decide) rfl .endforTag

/-! ## Pieces written anew -/

/-- A piece written anew: a text stays, and a directive turns into a directive. -/
def Piece.Kin : Piece → Piece → Prop
  | .text raw, .text raw' => raw = raw'
  | .directive _ _, .directive d body => d.Closes body
  | .text _, .directive _ _ => False
  | .directive _ _, .text _ => False

theorem Piece.Kin.whole {p q : Piece} (h : p.Kin q) (hp : p.Whole) : q.Whole := by
  cases p <;> cases q <;> simp_all [Piece.Kin, Piece.Whole]

theorem Piece.Kin.apart {p p' q q' : Piece} (h : p.Kin p') (h' : q.Kin q') (hp : p.Apart q) : p'.Apart q' := by
  cases p <;> cases p' <;> cases q <;> cases q' <;> simp_all [Piece.Kin, Piece.Apart]

/-- Pieces written anew come apart where the pieces did. -/
theorem Row.kin {ps qs : List Piece} (h : List.Forall₂ Piece.Kin ps qs) (hrow : Row ps) : Row qs := by
  induction h with
  | nil => exact hrow
  | @cons p q ps qs hkin hmore ih =>
    obtain ⟨hwhole, happart, hrest⟩ := row_cons.1 hrow
    refine row_cons.2 ⟨hkin.whole hwhole, ?_, ih hrest⟩
    cases hmore with
    | nil => simp
    | cons hnext _ => rintro _ ⟨⟩; exact hkin.apart hnext (happart _ rfl)

/-- The pieces `ps` turn into pieces with `P` that are written `text`. -/
def Rewrites (ps : List Piece) (text : Text) (P : List Piece → Prop) : Prop :=
  ∃ qs, List.Forall₂ Piece.Kin ps qs ∧ raws qs = text ∧ P qs

section
variable {ps qs : List Piece} {x y : Text} {P Q : List Piece → Prop}

theorem Rewrites.append (h : Rewrites ps x P) (h' : Rewrites qs y Q) :
    Rewrites (ps ++ qs) (x ++ y) fun rs => ∃ a b, rs = a ++ b ∧ P a ∧ Q b := by
  obtain ⟨a, hkin, rfl, ha⟩ := h
  obtain ⟨b, hkin', rfl, hb⟩ := h'
  exact ⟨a ++ b, List.rel_append hkin hkin', raws_append a b, a, b, rfl, ha, hb⟩

theorem Rewrites.imp (h : Rewrites ps x P) (himp : ∀ {qs}, P qs → Q qs) : Rewrites ps x Q := by
  obtain ⟨qs, hkin, htext, hqs⟩ := h
  exact ⟨qs, hkin, htext, himp hqs⟩

theorem written_of_pieces {d : Delim} {head : Head} {span : Span} (h : pieces.directive d ps head span)
    (hwhole : ∀ p ∈ ps, p.Whole) : Written d head span.raw := by
  obtain ⟨body, start, inner, rfl, hraw, hlexes, hhead⟩ := h
  exact ⟨body, start, inner, hraw, hwhole _ (List.mem_singleton.2 rfl), hlexes, hhead⟩

theorem rewrites_directive {d : Delim} {head head' : Head} {span : Span} {raw : Text}
    (h : pieces.directive d ps head span) (hwritten : Written d head' raw) (o : Nat) :
    Rewrites ps raw fun qs => pieces.directive d qs head' ⟨raw, o⟩ := by
  obtain ⟨_, _, _, rfl, -⟩ := h
  obtain ⟨body, start, inner, rfl, hcloses, hlexes, hhead⟩ := hwritten
  refine ⟨[.directive d body], .cons hcloses .nil, by simp [Piece.raw], body, start, inner, rfl, rfl, hlexes, hhead⟩

end

/-- A part of a template as it is written. -/
def Grammar.Phrase.print (ns : Text) : Phrase → Text
  | .node n => n.print ns
  | .nodes t => Template.print ns t
  | .alternative a => a.print ns

/-- What a written part of a template stands for. -/
def Grammar.Phrase.norm (ns : Text) : Phrase → Phrase
  | .node n => .node (n.norm ns)
  | .nodes t => .nodes (Template.norm ns t)
  | .alternative a => .alternative (a.norm ns)

/-- **The pieces of a template turn into pieces that spell its normal form.** -/
theorem rewrites_blocks {ns : Text} (hns : IsName ns) {ps : List Piece} {phrase : Phrase}
    (h : Blocks pieces ps phrase) (hwhole : ∀ p ∈ ps, p.Whole) :
    Rewrites ps (phrase.print ns) fun qs => Blocks pieces qs (phrase.norm ns) := by
  induction h with
  | nil => exact ⟨[], .nil, rfl, .nil⟩
  | cons _ _ ihf ihm =>
    obtain ⟨hfirst, hmore⟩ := List.forall_mem_append.1 hwhole
    refine ((ihf hfirst).append (ihm hmore)).imp ?_
    rintro _ ⟨a, b, rfl, ha, hb⟩
    exact .cons ha hb
  | @text ps raw h =>
    cases h
    exact ⟨[.text raw], .cons rfl .nil, by simp [Piece.raw, Phrase.print, Node.print], .text rfl⟩
  | @comment ps raw h =>
    obtain ⟨body, rfl, rfl⟩ := h
    have hcloses : Delim.comment.Closes body := hwhole _ (List.mem_singleton.2 rfl)
    exact ⟨[.directive .comment body], .cons hcloses .nil, by simp [Piece.raw, Phrase.print, Node.print],
      .comment ⟨body, rfl, rfl⟩⟩
  | @var ps p default fs marked span h =>
    have hwritten := (rewritten_var (v := ⟨p, default, fs, marked, span⟩) hns.1 (written_of_pieces h hwhole)).written hns
    refine (rewrites_directive h hwritten span.offset).imp fun hvar => ?_
    rw [← Variable.span_norm ns ⟨p, default, fs, marked, span⟩] at hvar
    exact .var hvar
  | @unsupported ps name closing span h =>
    exact (rewrites_directive h (written_of_pieces h hwhole) span.offset).imp fun h => .unsupported h
  | endif h => exact (rewrites_directive h written_endif 0).imp .endif
  | @ifBlock a b r c tag body more htag _ _ ihb ihm =>
    obtain ⟨hfirst, hrest⟩ := List.forall_mem_append.1 hwhole
    obtain ⟨hbody, hmore⟩ := List.forall_mem_append.1 hrest
    have hwritten := (rewritten_if hns.1 (written_of_pieces htag hfirst)).written hns
    rw [Phrase.print, Node.print, List.append_assoc]
    refine ((rewrites_directive htag hwritten tag.offset).append ((ihb hbody).append (ihm hmore))).imp ?_
    rintro _ ⟨a, _, rfl, ha, b, r, rfl, hb, hr⟩
    exact .ifBlock ha hb hr
  | @elseif a b r c tag body more htag _ _ ihb ihm =>
    obtain ⟨hfirst, hrest⟩ := List.forall_mem_append.1 hwhole
    obtain ⟨hbody, hmore⟩ := List.forall_mem_append.1 hrest
    have hwritten := (rewritten_elseif hns.1 (written_of_pieces htag hfirst)).written hns
    rw [Phrase.print, Alternative.print, List.append_assoc]
    refine ((rewrites_directive htag hwritten tag.offset).append ((ihb hbody).append (ihm hmore))).imp ?_
    rintro _ ⟨a, _, rfl, ha, b, r, rfl, hb, hr⟩
    exact .elseif ha hb hr
  | @forBlock a b r name source tag close body htag _ hclose ihb =>
    obtain ⟨hfirst, hrest⟩ := List.forall_mem_append.1 hwhole
    have hbody := ihb (List.forall_mem_append.1 hrest).1
    have hwritten := (rewritten_for hns.1 (written_of_pieces htag hfirst)).written hns
    rw [Phrase.print, Node.print, List.append_assoc]
    refine ((rewrites_directive htag hwritten tag.offset).append
      (hbody.append (rewrites_directive hclose written_endfor 0))).imp ?_
    rintro _ ⟨a, _, rfl, ha, b, r, rfl, hb, hr⟩
    exact .forBlock ha hb hr
  | @otherwise a b r tag close body htag _ hclose ihb =>
    have hbody := ihb (List.forall_mem_append.1 (List.forall_mem_append.1 hwhole).2).1
    rw [Phrase.print, Alternative.print, List.append_assoc]
    refine ((rewrites_directive htag written_else 0).append
      (hbody.append (rewrites_directive hclose written_endif 0))).imp ?_
    rintro _ ⟨a, _, rfl, ha, b, r, rfl, hb, hr⟩
    exact .otherwise ha hb hr

end MailDialect
