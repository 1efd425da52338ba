import MailDialect.Proofs.Frame
import MailDialect.Proofs.Reporting

/-!
# Clean output

A migration that reports nothing leaves nothing behind that only the Mailjet dialect has: no marked path,
no default behind a colon, and no clause but `elif`. Two kinds of directives are passed on as they are
without a report and are left out of this: loops over numbers, and tags that end an unsupported tag. Main
statement: `migrate_clean`.
-/

namespace MailDialect

open Grammar

/-! ## The Brevo dialect -/

/-- The tokens of a directive show nothing that only the Mailjet dialect has. -/
structure IsBrevo (d : Delim) (inner : List Token) : Prop where
  unmarked : ∀ used p, used <:+: inner → ¬IsPath used p true
  undefaulted : ∀ p default fs marked, IsHead d inner (.var p default fs marked) → default = none
  clause : ∀ c, IsHead d inner (.elseifTag c) → ∃ word rest, inner = word :: rest ∧ word.text = ['e', 'l', 'i', 'f']

/-- Whether a directive is passed on as it is and never reported: a loop over numbers, or the end of an
unsupported tag. -/
def Grammar.Head.isSilent : Head → Bool
  | .forTag _ (.range _) => true
  | .unsupported _ closing => closing
  | _ => false

/-- In the place of the directive `old` stands a directive `new` that can be read, in the Brevo dialect
however it is read, or as `old` stands if it is passed on in silence. -/
def Directive.GivesWay (source output : Text) (old new : Directive) : Prop :=
  (∃ head, IsHead new.delim new.inner head) ∧ ∀ head, IsHead new.delim new.inner head →
    if head.isSilent then new.text output = old.text source else IsBrevo new.delim new.inner

/-! ## Silent directives -/

/-- A tag starts as a loop over numbers does, or with the name of the end of an unsupported tag. -/
def StartsSilent (ts : List Token) : Prop :=
  (∃ word name second range rest, ts = word :: name :: second :: range :: rest ∧ word.kind = .keyword .kwFor ∧
    range.kind = .keyword .kwRange) ∨
  ∃ word rest tag, ts = word :: rest ∧ word.kind = .name ∧ word.text = 'e' :: 'n' :: 'd' :: tag ∧
    tag ∈ Dialect.unsupportedTags

theorem not_startsSilent {word : Token} {ts : List Token} {k : Keyword} (hword : word.kind = .keyword k)
    (hk : k ≠ .kwFor) : ¬StartsSilent (word :: ts) := by
  rintro (⟨_, _, _, _, _, heq, hfor, -⟩ | ⟨_, _, _, heq, hname, -⟩)
  · cases heq
    cases hword.symm.trans hfor
    exact hk rfl
  · cases heq
    cases hword.symm.trans hname

/-- How a directive starts tells whether it is passed on in silence. -/
theorem isSilent_iff {d : Delim} {ts : List Token} {head : Head} (h : IsHead d ts head) :
    head.isSilent ↔ d = .tag ∧ StartsSilent ts := by
  cases h with
  | var => simp [Head.isSilent]
  | ifTag hword | elseif hword | elseIf hword | elseTag hword | endifTag hword | endforTag hword =>
    simpa [Head.isSilent] using not_startsSilent hword (by simp)
  | forTag hword hname hsecond hsource =>
    cases hsource with
    | range hrange => exact iff_of_true rfl ⟨rfl, .inl ⟨_, _, _, _, _, rfl, hword, hrange⟩⟩
    | collection hpath _ =>
      refine iff_of_false (by simp [Head.isSilent]) ?_
      rintro ⟨-, ⟨_, _, _, _, _, heq, -, hrange⟩ | ⟨_, _, _, heq, hname, -⟩⟩
      · -- the collection starts with a name, where `range` would stand
        cases hpath with
        | plain hbase _ => cases heq; cases hbase.symm.trans hrange
        | marked hmarker => cases heq; cases hmarker.symm.trans hrange
      · cases heq
        cases hword.symm.trans hname
  | opening hname htag =>
    refine iff_of_false (by simp [Head.isSilent]) ?_
    rintro ⟨-, ⟨_, _, _, _, _, heq, hfor, -⟩ | ⟨_, _, tag, heq, -, htext, -⟩⟩
    · cases heq
      cases hname.symm.trans hfor
    · cases heq
      rw [htext] at htag
      exact Dialect.end_not_mem_unsupportedTags tag htag
  | closing hname htext htag => exact iff_of_true rfl ⟨rfl, .inr ⟨_, _, _, rfl, hname, htext, htag⟩⟩

theorem isSilent_unique {d : Delim} {ts : List Token} {head head' : Head} (h : IsHead d ts head)
    (h' : IsHead d ts head') : head.isSilent = head'.isSilent := by
  rw [Bool.eq_iff_iff, isSilent_iff h, isSilent_iff h']

/-! ## Tidy tokens -/

/-- A directive that is not passed on in silence, and what shows in its tokens if it is in the Brevo
dialect: no colon before a name, no colon before the filters of a variable, and nothing behind `else`. -/
structure Tidy (d : Delim) (inner : List Token) : Prop where
  meaning : ∃ head, IsHead d inner head ∧ head.isSilent = false
  unmarked : Unmarked inner
  undefaulted : d = .var → ∀ t ∈ beforeFilters inner, t.kind ≠ .punct .colon
  clause : ∀ t ∈ inner.head?, t.kind = .keyword .kwElseif → t.text = ['e', 'l', 'i', 'f']
  alone : ∀ t ∈ inner.head?, t.kind = .keyword .kwElse → inner = [t]

section
variable {d : Delim} {inner ts us : List Token}

theorem Tidy.isBrevo (h : Tidy d inner) : IsBrevo d inner := by
  refine ⟨fun used p hused => h.unmarked.not_isPath hused, ?_, ?_⟩
  · intro p default fs marked hhead
    cases hhead with
    | var hpath hdefault hfilters =>
      cases hdefault with
      | none => rfl
      | some hcolon =>
        have hcolons := h.undefaulted rfl
        rw [beforeFilters_var hpath (.some hcolon) hfilters] at hcolons
        exact (hcolons _ (by simp) hcolon).elim
  · intro c hhead
    cases hhead with
    | elseif hword _ => exact ⟨_, _, rfl, h.clause _ rfl hword⟩
    | elseIf hword _ _ => cases h.alone _ rfl hword

theorem Tidy.move (h : Tidy d inner) (start place : Nat) : Tidy d (inner.map (Token.move start place)) := by
  obtain ⟨head, hhead, hloud⟩ := h.meaning
  refine ⟨⟨head, isHead_move start place hhead, hloud⟩,
    List.isChain_map_of_isChain (Token.move start place) (fun _ _ hab => hab) h.unmarked, fun hd t ht => ?_, ?_, ?_⟩
  · rw [beforeFilters, List.takeWhile_map] at ht
    obtain ⟨u, hu, rfl⟩ := List.mem_map.1 ht
    exact h.undefaulted hd u hu
  · intro t ht hkind
    rw [List.head?_map] at ht
    obtain ⟨u, hu, rfl⟩ := Option.map_eq_some_iff.1 ht
    exact h.clause u hu hkind
  · intro t ht hkind
    rw [List.head?_map] at ht
    obtain ⟨u, hu, rfl⟩ := Option.map_eq_some_iff.1 ht
    rw [h.alone u hu hkind]
    rfl

/-- A variable without marker and default. -/
theorem tidy_var {p : Path} {fs : List Filter} (h : IsHead .var inner (.var p none fs false)) : Tidy .var inner := by
  have hmeaning := h
  cases h with
  | @var ts us vs _ _ _ _ hpath hdefault hfilters =>
    cases hdefault with
    | none =>
      have hfirst : ∀ t ∈ (ts ++ [] ++ vs).head?, t.kind = .name := by
        cases hpath with
        | plain hbase _ => rintro _ ⟨⟩; exact hbase
      refine ⟨⟨_, hmeaning, rfl⟩, ?_, fun _ t ht => ?_, fun t ht hkind => ?_, fun t ht hkind => ?_⟩
      · rw [List.append_nil]
        exact ((settled_path hpath).append (settled_filters hfilters)).unmarked
      · rw [beforeFilters_var hpath .none hfilters, List.append_nil] at ht
        intro hcolon
        simpa [hcolon, Token.Kind.isWord] using kinds_of_isPath hpath t ht
      · cases (hfirst t ht).symm.trans hkind
      · cases (hfirst t ht).symm.trans hkind

/-- A tag that starts with a reserved word. -/
theorem tidy_tag {word : Token} {k : Keyword} {head : Head} (hhead : IsHead .tag (word :: ts) head)
    (hloud : head.isSilent = false) (h : Settled ts) (hword : word.kind = .keyword k)
    (helseif : k = .kwElseif → word.text = ['e', 'l', 'i', 'f']) (helse : k = .kwElse → ts = []) :
    Tidy .tag (word :: ts) := by
  refine ⟨⟨head, hhead, hloud⟩, (h.cons hword (by simp)).unmarked, nofun, ?_, ?_⟩
  · rintro _ ⟨⟩ hkind
    exact helseif (by simpa [hword] using hkind)
  · rintro _ ⟨⟩ hkind
    rw [helse (by simpa [hword] using hkind)]

end

/-! ## Directives without a report -/

theorem Span.filterDiagnostics_eq_nil_iff {span : Span} {fs : List Filter} :
    span.filterDiagnostics fs = [] ↔ fs.any Filter.isUnsupported = false := by
  simp [Span.filterDiagnostics]

section
variable {ns : Text} {span : Span}

theorem tidy_variable {v : Variable} (hns : IsName ns)
    (h : Written .var (.var v.path v.default v.filters v.marked) v.span.raw)
    (hclean : v.filters.any Filter.isUnsupported = false) : Enclosed .var (v.print ns) (Tidy .var) := by
  have hnorm : (v.norm ns).default = none ∧ (v.norm ns).marked = false := by
    by_cases hkept : v.isKept
    · rw [Variable.norm, if_pos hkept]
      simp only [Variable.isKept, hclean, Variable.isForeign, Bool.false_or, Bool.not_eq_true', Bool.or_eq_false_iff,
        Option.isSome_eq_false_iff, Option.isNone_iff_eq_none] at hkept
      exact ⟨hkept.2, hkept.1.2⟩
    · rw [Variable.norm, if_neg hkept]
      exact ⟨rfl, rfl⟩
  refine (rewritten_var hns.1 h).imp fun inner hinner => ?_
  have hhead := hinner hns
  rw [hnorm.1, hnorm.2] at hhead
  exact tidy_var hhead

/-- A clause of a conditional block. -/
theorem tidy_clause {c : Expr} {word : Text} {k : Keyword} {us : List Token} {head : Expr → Head} (hns : IsName ns)
    (hword : word.isWord) (hk : Keyword.ofWord? word = some k) (hc : IsExpr .condition us c) (hus : Good .tag us)
    (hclean : c.filters.any Filter.isUnsupported = false) (helseif : k = .kwElseif → word = ['e', 'l', 'i', 'f'])
    (helse : k ≠ .kwElse)
    (hhead : ∀ {t us c'}, t.kind = .keyword k → IsExpr .condition us c' → IsHead .tag (t :: us) (head c'))
    (hloud : ∀ c', (head c').isSilent = false) : Enclosed .tag (c.printTag ns word span) (Tidy .tag) := by
  rw [Expr.printTag, if_neg (by simp [hclean])]
  refine (enclosed_condition hns.1 hword hk hc hus).imp ?_
  rintro _ ⟨t, us, rfl, ht, htext, hus⟩
  obtain ⟨hexpr, hsettled⟩ := hus hns
  refine tidy_tag (hhead ht hexpr) (hloud _) hsettled ht (fun hk => ?_) fun hk => (helse hk).elim
  rw [htext, helseif hk]

/-- A tag that is a word. -/
theorem tidy_word {head : Head} {raw : Text} (h : Written .tag head raw)
    (hword : ∀ {ts}, IsHead .tag ts head → ∃ t k, ts = [t] ∧ t.kind = .keyword k ∧ k ≠ .kwElseif)
    (hloud : head.isSilent = false) : Enclosed .tag raw (Tidy .tag) := by
  refine h.imp fun inner hinner => ?_
  obtain ⟨t, k, rfl, ht, hk⟩ := hword hinner
  exact tidy_tag hinner hloud settled_nil ht (fun h => (hk h).elim) fun _ => rfl

/-- The first tag of a loop over a collection. -/
theorem tidy_loop {name : Text} {p : Path} {marked : Bool} {fs : List Filter} {ts us : List Token} (hns : IsName ns)
    (hname : IsName name) (hpath : IsPath ts p marked) (hfilters : IsFilters us fs) (hts : Good .tag (ts ++ us))
    (hclean : fs.any Filter.isUnsupported = false) :
    Enclosed .tag ((LoopSource.collection p fs).printTag ns name span) (Tidy .tag) := by
  rw [LoopSource.printTag, if_neg (by simp [hclean])]
  refine ((spells_loop hns.1 hname hpath hfilters hts).imp ?_).enclosed_tag
  rintro _ ⟨word, var, second, us, vs, rfl, hword, hvar, -, hsecond, hus, hvs⟩
  have hsettled := (settled_path (hus hns)).append (settled_filters hvs)
  have hrest := (hsettled.cons hsecond (by simp)).cons hvar (by simp)
  exact tidy_tag (.forTag hword hvar hsecond (.collection (hus hns) hvs)) rfl hrest hword (by simp) (by simp)

/-- **What is written in the place of a directive is tidy**, if nothing is reported of it and it is not
passed on in silence. -/
theorem enclosed_tidy {d : Delim} {head : Head} (hns : IsName ns) (h : Written d head span.raw)
    (hclean : head.diagnostics span = []) (hloud : head.isSilent = false) :
    Enclosed d (head.print ns span) (Tidy d) := by
  have hwritten := h
  obtain ⟨inner, hgood, hhead⟩ := h.good
  cases hhead with
  | @var _ _ _ p marked default fs =>
    exact tidy_variable (v := ⟨p, default, fs, marked, span⟩) hns hwritten
      (Span.filterDiagnostics_eq_nil_iff.1 hclean)
  | ifTag _ hc =>
    exact tidy_clause hns (by decide) (by decide) hc hgood.tail (Span.filterDiagnostics_eq_nil_iff.1 hclean)
      (by simp) (by simp) .ifTag fun _ => rfl
  | elseif _ hc =>
    exact tidy_clause hns (by decide) (by decide) hc hgood.tail (Span.filterDiagnostics_eq_nil_iff.1 hclean)
      (by simp) (by simp) .elseif fun _ => rfl
  | elseIf _ _ hc =>
    exact tidy_clause hns (by decide) (by decide) hc hgood.tail.tail (Span.filterDiagnostics_eq_nil_iff.1 hclean)
      (by simp) (by simp) .elseif fun _ => rfl
  | @forTag _ name _ _ source _ hname _ hsource =>
    cases hsource with
    | range => cases hloud
    | collection hpath hfilters =>
      exact tidy_loop hns (hgood.tail.isName hname) hpath hfilters hgood.tail.tail.tail
        (Span.filterDiagnostics_eq_nil_iff.1 hclean)
  | elseTag =>
    refine tidy_word written_else (fun h => ?_) rfl
    cases h with
    | elseTag hword => exact ⟨_, _, rfl, hword, by simp⟩
  | endifTag =>
    refine tidy_word written_endif (fun h => ?_) rfl
    cases h with
    | endifTag hword => exact ⟨_, _, rfl, hword, by simp⟩
  | endforTag =>
    refine tidy_word written_endfor (fun h => ?_) rfl
    cases h with
    | endforTag hword => exact ⟨_, _, rfl, hword, by simp⟩
  | opening => cases hclean
  | closing => cases hloud

end

/-! ## Whole texts -/

/-- The tokens of a whole directive have what is known of them, wherever it stands. -/
theorem Enclosed.tokens {d : Delim} {body : Text} {P : List Token → Prop} {start : Nat} {inner : List Token}
    (h : Enclosed d (d.enclose body) P) (hmove : ∀ {ts} a b, P ts → P (ts.map (Token.move a b)))
    (hlexes : Lexes false start body inner) : P inner := by
  obtain ⟨body', start', inner', hbody, -, hlexes', hinner⟩ := h
  obtain rfl : body = body' := List.append_cancel_left (List.append_cancel_right hbody)
  rw [(hlexes'.move start).unique hlexes]
  exact hmove _ _ hinner

theorem Grammar.Head.isPassedOn_of_isSilent {head : Head} (h : head.isSilent) : head.isPassedOn := by
  cases head with
  | forTag name source =>
    cases source with
    | range => rfl
    | collection => cases h
  | unsupported => rfl
  | _ => cases h

section
variable {ns source output : Text} {ps qs : List Piece} {heads : List Head}

/-- A directive with no report gives way to what is written in its place. -/
theorem givesWay_of_lexes {body body' : Text} {head : Head} {old new : Directive} {start : Nat} (hns : IsName ns)
    (hwritten : Written old.delim head (old.delim.enclose body)) (hhead : IsHead old.delim old.inner head)
    (hprint : head.print ns ⟨old.delim.enclose body, old.start⟩ = old.delim.enclose body')
    (hold : old.text source = old.delim.enclose body) (hclean : old.reports source = [])
    (hnew : new.text output = old.delim.enclose body') (hdelim : new.delim = old.delim)
    (hlexes : Lexes false start body' new.inner) : old.GivesWay source output new := by
  have hquiet := (Directive.reports_of_head hhead).symm.trans hclean
  rw [hold, List.map_eq_nil_iff] at hquiet
  by_cases hsilent : head.isSilent
  · have hsame : old.delim.enclose body = old.delim.enclose body' :=
      (Head.print_of_isPassedOn (Head.isPassedOn_of_isSilent hsilent)).symm.trans hprint
    rw [hsame] at hwritten
    have hnewHead : IsHead new.delim new.inner head := by
      rw [hdelim]
      exact hwritten.tokens (fun a b => isHead_move a b) hlexes
    refine ⟨⟨head, hnewHead⟩, fun head' hhead' => ?_⟩
    rw [isSilent_unique hhead' hnewHead, if_pos hsilent, hnew, hold, hsame]
  · have htidy : Enclosed old.delim (head.print ns ⟨old.delim.enclose body, old.start⟩) (Tidy old.delim) :=
      enclosed_tidy hns hwritten hquiet (by simpa using hsilent)
    rw [hprint] at htidy
    have hinner := htidy.tokens (fun a b h => h.move a b) hlexes
    rw [← hdelim] at hinner
    obtain ⟨head₁, hhead₁, hloud⟩ := hinner.meaning
    refine ⟨⟨head₁, hhead₁⟩, fun head' hhead' => ?_⟩
    rw [isSilent_unique hhead' hhead₁, if_neg (by simp [hloud])]
    exact hinner.isBrevo

/-- **Directives give way one by one**, if nothing is reported of any. -/
theorem Respells.givesWay {offset offset' : Nat} {ts us : List Token} (hns : IsName ns) (h : Respells ns ps heads qs)
    (hwhole : ∀ p ∈ ps, p.Whole) (hlexed : Lexed offset ps ts) (hlexed' : Lexed offset' qs us)
    (hstands : Stands source offset ps) (hstands' : Stands output offset' qs)
    (hclean : ∀ dir ∈ Token.directives ts, dir.reports source = []) :
    List.Forall₂ (Directive.GivesWay source output) (Token.directives ts) (Token.directives us) := by
  induction h generalizing offset offset' ts us with
  | nil =>
    cases hlexed
    cases hlexed'
    simp
  | @quiet p ps qs heads hp _ ih =>
    obtain ⟨-, hothers⟩ := List.forall_mem_cons.1 hwhole
    cases hlexed with
    | text hmore =>
      cases hlexed' with
      | text hmore' =>
        rw [Token.directives_text_cons] at hclean ⊢
        rw [Token.directives_text_cons]
        exact ih hothers hmore hmore' (hstands.tail rfl) (hstands'.tail rfl) hclean
    | @directive _ d body _ _ _ hinside hmore =>
      have hd : d = .comment := by simpa [Piece.isMarkup] using hp
      subst hd
      cases hlexed' with
      | directive hinside' hmore' =>
        rw [Token.directives_comment_cons rfl rfl hinside.unclosed] at hclean ⊢
        rw [Token.directives_comment_cons rfl rfl hinside'.unclosed]
        have hsize : ∀ o, o + 2 + Text.byteSize body + 2 = o + Text.byteSize (Piece.directive .comment body).raw := by
          intro o
          simp [Piece.raw, Delim.byteSize_enclose, Nat.add_assoc]
        exact ih hothers hmore hmore' (hstands.tail (hsize _)) (hstands'.tail (hsize _)) hclean
  | @markup d body body' head _ _ inner _ ps qs heads hd hlexes hhead hcloses hlexes' hprint _ ih =>
    obtain ⟨hcloses₁, hothers⟩ := List.forall_mem_cons.1 hwhole
    cases hlexed with
    | @directive _ _ _ _ inner₁ _ hinside hmore =>
      cases hlexed' with
      | @directive _ _ _ _ inner₂ _ hinside' hmore' =>
        rw [Token.directives_markup_cons hd rfl rfl hinside.unclosed] at hclean ⊢
        rw [Token.directives_markup_cons hd rfl rfl hinside'.unclosed]
        obtain ⟨hquiet, hclean⟩ := List.forall_mem_cons.1 hclean
        refine .cons ?_ (ih hothers hmore hmore' (hstands.tail ?_) (hstands'.tail ?_) hclean)
        · have hplace : head.print ns ⟨d.enclose body, offset⟩ = d.enclose body' := by
            rw [← hprint]
            cases head <;> rfl
          have hinner := (hlexes.move (offset + 2)).unique ((inside_iff_lexes hd).1 hinside)
          refine givesWay_of_lexes hns ⟨body, _, inner, rfl, hcloses₁, hlexes, hhead⟩ ?_ hplace
            (slice_directive (Stands.left hstands)) hquiet (slice_directive (Stands.left hstands')) rfl
            ((inside_iff_lexes hd).1 hinside')
          rw [hinner]
          exact isHead_move _ _ hhead
        · simp [Piece.raw, Delim.byteSize_enclose, Nat.add_assoc]
        · simp [Piece.raw, Delim.byteSize_enclose, Nat.add_assoc]

end

/-- **A migration that reports nothing leaves nothing of the Mailjet dialect**: in the place of each
variable and each tag stands a directive without markers, without a default and with no clause but `elif`,
except for loops over numbers and ends of unsupported tags, which are passed on as they stand. -/
theorem migrate_clean {settings : Settings} {source : Text} {m : Migration}
    (hfree : Keyword.ofWord? settings.ns = none) (h : migrate settings source = .ok m) (hclean : m.isClean) :
    ∃ ts us, Token.scan source = .ok ts ∧ Token.scan m.output = .ok us ∧
      List.Forall₂ (Directive.GivesWay source m.output) (Token.directives ts) (Token.directives us) := by
  obtain ⟨hword, t, hparse, -, rfl⟩ := migrate_eq_ok_iff.1 h
  have hnone : Template.diagnostics t = [] := List.isEmpty_iff.1 hclean
  obtain ⟨ps, hrow, rfl, hblocks, -⟩ := Template.pieces_of_parse hparse
  have hstands : ∀ ps, Stands (raws ps) 0 ps := fun ps => ⟨[], [], by simp, rfl⟩
  obtain ⟨ts, hlexed, -⟩ := tokens_of_pieces hblocks 0 (hstands ps)
  obtain ⟨qs, hrespells, houtput⟩ := respelled_blocks hword hblocks hrow.1
  obtain ⟨us, hlexed'⟩ := hrespells.lexed 0
  have hscans : Scans 0 (raws ps) ts := scans_iff_lexed.2 ⟨ps, hrow, rfl, hlexed⟩
  have hscans' : Scans 0 (raws qs) us := scans_iff_lexed.2 ⟨qs, hrow.kin (hrespells.kin hrow.1), rfl, hlexed'⟩
  have hscan := Token.scan_eq_ok_iff.2 hscans
  change raws qs = Template.print settings.ns t at houtput
  rw [houtput] at hscans'
  have hquiet : ∀ dir ∈ Token.directives ts, dir.reports (raws ps) = [] := by
    have hreports := Template.reports_of_parse hscan hparse
    rw [hnone, List.map_nil, eq_comm, List.flatMap_eq_nil_iff] at hreports
    exact hreports
  refine ⟨ts, us, hscan, Token.scan_eq_ok_iff.2 hscans', ?_⟩
  exact hrespells.givesWay ⟨hword, hfree⟩ hrow.1 hlexed hlexed' (hstands ps) (houtput ▸ hstands qs) hquiet

/-- Markers before a loop's collection, in a condition and before a variable of the loop, a clause in two
words and a default, beside the end of an unsupported tag and a loop over numbers that keeps its marker. -/
theorem migrate_clean_nested : ∃ source m,
    (source = Delim.tag.enclose "for i in var:xs".toList ++ Delim.tag.enclose "if var:a == 1".toList ++
      Delim.var.enclose "var:i.n:'d'".toList ++ Delim.tag.enclose "else if not b".toList ++
      Delim.tag.enclose "endif".toList ++ Delim.tag.enclose "endfor".toList ++ Delim.tag.enclose "endset".toList ++
      Delim.tag.enclose "for n in range(var:k)".toList ++ Delim.tag.enclose "endfor".toList ∧
    migrate ⟨false, "params".toList⟩ source = .ok m ∧
    m = ⟨Delim.tag.enclose " for i in params.xs ".toList ++ Delim.tag.enclose " if params.a == 1 ".toList ++
      Delim.var.enclose "i.n|default:\"d\"".toList ++ Delim.tag.enclose " elif not params.b ".toList ++
      Delim.tag.enclose " endif ".toList ++ Delim.tag.enclose " endfor ".toList ++
      Delim.tag.enclose "endset".toList ++ Delim.tag.enclose "for n in range(var:k)".toList ++
      Delim.tag.enclose " endfor ".toList, []⟩) ∧
    ∃ ts us, Token.scan source = .ok ts ∧ Token.scan m.output = .ok us ∧
      List.Forall₂ (Directive.GivesWay source m.output) (Token.directives ts) (Token.directives us) := by
  refine ⟨_, (exists_ok_of_toOption (f := id) ?_).imp fun m h =>
    ⟨⟨rfl, h⟩, migrate_clean (by decide) h.1 (by rw [show m = _ from h.2]; rfl)⟩⟩
  decide +kernel

/-- A loop over numbers keeps the marker of a bound, and nothing is reported. -/
theorem clean_range_marked : ∃ m us dir used p,
    migrate ⟨false, "params".toList⟩ (Delim.tag.enclose " for i in range(var:n) ".toList ++
      Delim.var.enclose "i".toList ++ Delim.tag.enclose " endfor ".toList) = .ok m ∧ m.isClean ∧
    Token.scan m.output = .ok us ∧ dir ∈ Token.directives us ∧
    IsHead dir.delim dir.inner (.forTag ['i'] (.range [.name ['n']])) ∧ used <:+: dir.inner ∧ IsPath used p true := by
  have hmigrate : migrate ⟨false, "params".toList⟩ (Delim.tag.enclose " for i in range(var:n) ".toList ++
      Delim.var.enclose "i".toList ++ Delim.tag.enclose " endfor ".toList) =
      .ok ⟨Delim.tag.enclose " for i in range(var:n) ".toList ++ Delim.var.enclose "i".toList ++
        Delim.tag.enclose " endfor ".toList, []⟩ := by decide +kernel
  obtain ⟨us, hscan, hfirst⟩ : ∃ us, Token.scan (Delim.tag.enclose " for i in range(var:n) ".toList ++
      Delim.var.enclose "i".toList ++ Delim.tag.enclose " endfor ".toList) = .ok us ∧
      (Token.directives us).head? = some ⟨.tag, ⟨.opener .tag, Delim.tag.opener, 0⟩,
        [⟨.keyword .kwFor, "for".toList, 3⟩, ⟨.name, ['i'], 7⟩, ⟨.keyword .kwIn, "in".toList, 9⟩,
          ⟨.keyword .kwRange, "range".toList, 12⟩, ⟨.punct .lparen, ['('], 17⟩, ⟨.name, Dialect.marker, 18⟩,
          ⟨.punct .colon, [':'], 21⟩, ⟨.name, ['n'], 22⟩, ⟨.punct .rparen, [')'], 23⟩],
        ⟨.closer .tag, Delim.tag.closer, 25⟩⟩ := exists_ok_of_toOption (by decide +kernel)
  have hpath : IsPath [⟨.name, Dialect.marker, 18⟩, ⟨.punct .colon, [':'], 21⟩, ⟨.name, ['n'], 22⟩]
      ⟨['n'], [], .param⟩ true := .marked rfl rfl rfl rfl .nil
  refine ⟨_, us, _, _, _, hmigrate, rfl, hscan, List.mem_of_mem_head? hfirst, ?_, ?_, hpath⟩
  · exact .forTag rfl rfl rfl (.range rfl rfl (.one (.name hpath)) (by simp) rfl)
  · exact ⟨[_, _, _, _, _], [_], rfl⟩

end MailDialect
