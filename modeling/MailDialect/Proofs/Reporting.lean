import MailDialect.Proofs.Bracketing
import MailDialect.Proofs.Stability

/-!
# What is reported

The diagnostics of a source can be told from its tokens, without a template: they are what its
variables and tags lack, one after the other (`Directive.messages`). Main statement: bringing a text
over reports exactly that, with every directive quoted from its opener to its first closer
(`migrate_reports`).
-/

namespace MailDialect

open Grammar

/-! ## Reports from tokens -/

/-- The names that stand right behind a bar. -/
def Token.barred : List Token → List Text
  | bar :: name :: ts =>
    if bar.kind = .punct .pipe ∧ name.kind = .name then name.text :: barred (name :: ts)
    else barred (name :: ts)
  | _ => []

/-- The name that a tag starts with. -/
def Directive.name? (dir : Directive) : Option Text :=
  match dir.delim, dir.inner with
  | .tag, t :: _ => if t.kind = .name then some t.text else none
  | _, _ => none

/-- One message for each name behind a bar that is an unsupported filter. -/
def Directive.filterMessages (dir : Directive) : List String :=
  ((Token.barred dir.inner).filter (· ∈ Dialect.unsupportedFilters)).map fun name =>
    "Filter '" ++ String.ofList name ++ "' is not supported in Brevo"

/-- What is said about a directive. A tag that Brevo lacks is named once, whatever it holds; the tag
that ends it is passed over. -/
def Directive.messages (dir : Directive) : List String :=
  match dir.name? with
  | none => dir.filterMessages
  | some name =>
    if name ∈ Dialect.unsupportedTags then ["Tag '" ++ String.ofList name ++ "' is not supported in Brevo"]
    else if ∃ tag ∈ Dialect.unsupportedTags, name = 'e' :: 'n' :: 'd' :: tag then []
    else dir.filterMessages

/-- What is said about a directive, with the directive as it stands in the source and its place. -/
def Directive.reports (source : Text) (dir : Directive) : List (String × Text × Nat) :=
  dir.messages.map (·, dir.text source, dir.start)

/-- A directive is what stands in the source from its opener to the first closer behind it. -/
def Directive.CutOut (source : Text) (dir : Directive) : Prop :=
  ∃ before body after, source = before ++ dir.delim.enclose body ++ after ∧ Text.byteSize before = dir.start ∧
    dir.text source = dir.delim.enclose body ∧
    ∀ x y, body ++ dir.delim.closer ++ after = x ++ dir.delim.closer ++ y → body.length ≤ x.length

/-- A diagnostic as it is shown. -/
def Diagnostic.report (d : Diagnostic) : String × Text × Nat := (d.message, d.snippet, d.offset)

/-! ## Names behind bars -/

/-- The names behind bars in `ts` are those of the filters `fs`, whatever comes after. -/
def Names (ts : List Token) (fs : List Filter) : Prop :=
  ∀ us, Token.barred (ts ++ us) = fs.map Filter.name ++ Token.barred us

section
variable {ts us : List Token} {fs gs : List Filter}

theorem Token.barred_cons {t : Token} (ht : t.kind ≠ .punct .pipe) : Token.barred (t :: ts) = Token.barred ts := by
  cases ts with
  | nil => rfl
  | cons u us => rw [Token.barred, if_neg fun h => ht h.1]

theorem names_nil : Names [] [] := fun _ => rfl

theorem Names.append (h : Names ts fs) (h' : Names us gs) : Names (ts ++ us) (fs ++ gs) := by
  intro vs
  rw [List.append_assoc, h, h', List.map_append, List.append_assoc]

theorem Names.cons {t : Token} {k : Token.Kind} (h : Names ts fs) (ht : t.kind = k) (hk : k ≠ .punct .pipe) :
    Names (t :: ts) fs := by
  intro us
  rw [List.cons_append, Token.barred_cons (ht ▸ hk), h]

theorem Names.snoc {t : Token} {k : Token.Kind} (h : Names ts fs) (ht : t.kind = k) (hk : k ≠ .punct .pipe) :
    Names (ts ++ [t]) fs := by
  simpa using h.append (names_nil.cons ht hk)

theorem names_commaList {α : Type} {Item : List Token → α → Prop} {as : List α}
    (hitem : ∀ ts a, Item ts a → Names ts []) (h : CommaList Item ts as) : Names ts [] := by
  induction h with
  | one h => exact hitem _ _ h
  | more h hcomma _ ih => exact (hitem _ _ h).append (ih.cons hcomma (by simp))

theorem names_literal {l : Literal} (h : IsLiteral ts l) : Names ts [] := by
  cases h with
  | negative => exact (names_nil.cons rfl (by simp)).cons rfl (by simp)
  | _ => exact names_nil.cons rfl (by simp)

/-- A filter behind its bar is named once, and its arguments name nothing. -/
theorem names_filter {bar : Token} {f : Filter} (hbar : bar.kind = .punct .pipe) (h : IsFilter ts f) :
    Names (bar :: ts) [f] := by
  have hfirst : ∀ {name : Token} {more : List Token}, name.kind = .name → Names more [] →
      ∀ us, Token.barred (bar :: name :: more ++ us) = name.text :: Token.barred us := by
    intro name more hname hmore us
    rw [List.cons_append, List.cons_append, Token.barred, if_pos ⟨hbar, hname⟩,
      Token.barred_cons (by simp [hname]), hmore]
    rfl
  cases h with
  | bare hname => exact hfirst hname names_nil
  | colon hname hcolon hargs =>
    exact hfirst hname ((names_commaList (fun _ _ => names_literal) hargs).cons hcolon (by simp))
  | emptyCall hname hopening hclosing =>
    exact hfirst hname ((names_nil.cons hclosing (by simp)).cons hopening (by simp))
  | call hname hopening hargs hclosing =>
    have hall := (names_commaList (fun _ _ => names_literal) hargs).snoc hclosing (by simp)
    exact hfirst hname (hall.cons hopening (by simp))

theorem names_filters (h : IsFilters ts fs) : Names ts fs := by
  induction h with
  | nil => exact names_nil
  | cons hbar hfilter _ ih => exact (names_filter hbar hfilter).append ih

theorem names_path {p : Path} {marked : Bool} (h : IsPath ts p marked) : Names ts [] := by
  have hfields : ∀ {ts fields}, IsFields ts fields → Names ts [] := by
    intro ts fields h
    induction h with
    | nil => exact names_nil
    | cons hpoint hfield _ ih =>
      refine (ih.cons rfl fun hbar => ?_).cons hpoint (by simp)
      simp [hbar, Token.Kind.isWord] at hfield
  cases h with
  | plain hbase h => exact (hfields h).cons hbase (by simp)
  | marked hmarker _ hcolon hbase h =>
    exact (((hfields h).cons hbase (by simp)).cons hcolon (by simp)).cons hmarker (by simp)

/-- The filters of a condition are named in the order they are collected in. -/
theorem names_expr {level : Level} {e : Expr} (h : IsExpr level ts e) : Names ts e.filters := by
  induction h with
  | path h => exact names_path h
  | filtered hpath hfilters => exact (names_path hpath).append (names_filters hfilters)
  | literal h => exact names_literal h
  | group hopening _ hclosing ih => exact (ih.snoc hclosing (by simp)).cons hopening (by simp)
  | single _ ih | affirmed _ ih | conjunct _ ih | disjunct _ ih => exact ih
  | compare _ hop _ ihl ihr => exact ihl.append (ihr.cons hop (by simp))
  | not hword _ ih => exact ih.cons hword (by simp)
  | and _ hword _ ihl ihr | or _ hword _ ihl ihr => exact ihl.append (ihr.cons hword (by simp))

theorem names_loopSource {source : LoopSource} (h : IsLoopSource ts source) : Names ts source.filters := by
  cases h with
  | collection hpath hfilters => exact (names_path hpath).append (names_filters hfilters)
  | range hword hopening hbounds _ hclosing =>
    have hbound : ∀ ts b, IsBound ts b → Names ts [] := by
      rintro ts b (h | h)
      · exact names_literal h
      · exact names_path h
    have hall := (names_commaList hbound hbounds).snoc hclosing (by simp)
    exact (hall.cons hopening (by simp)).cons hword (by simp)

end

/-! ## Single directives -/

/-- The diagnostics of a directive by itself. -/
def Grammar.Head.diagnostics (span : Span) : Head → List Diagnostic
  | .var _ _ fs _ => span.filterDiagnostics fs
  | .ifTag c => span.filterDiagnostics c.filters
  | .elseifTag c => span.filterDiagnostics c.filters
  | .forTag _ source => span.filterDiagnostics source.filters
  | .unsupported name closing => Unsupported.diagnostics ⟨name, closing, span⟩
  | .elseTag => []
  | .endifTag => []
  | .endforTag => []

section
variable {source : Text} {dir : Directive}

/-- A directive that starts with no name is reported for its filters. -/
theorem Directive.reports_of_names {fs : List Filter} (hname : dir.name? = none) (hfilters : Names dir.inner fs) :
    dir.reports source = (Span.filterDiagnostics ⟨dir.text source, dir.start⟩ fs).map Diagnostic.report := by
  have hbarred : Token.barred dir.inner = fs.map Filter.name := by simpa [Token.barred] using hfilters []
  have hlacking : Filter.isUnsupported = fun f => decide (f.name ∈ Dialect.unsupportedFilters) := by
    funext f
    exact List.contains_eq_mem f.name Dialect.unsupportedFilters
  rw [Directive.reports, Directive.messages, hname, Directive.filterMessages, hbarred, Span.filterDiagnostics,
    hlacking, List.filter_map, List.map_map, List.map_map, List.map_map]
  rfl

/-- **What tokens say about a directive is what is reported of it.** -/
theorem Directive.reports_of_head {head : Head} (h : IsHead dir.delim dir.inner head) :
    dir.reports source = (head.diagnostics ⟨dir.text source, dir.start⟩).map Diagnostic.report := by
  obtain ⟨delim, opening, inner, closing⟩ := dir
  dsimp only at h
  cases h with
  | var hpath hdefault hfilters =>
    refine Directive.reports_of_names rfl ?_
    have hd : ∀ {ts value}, IsDefault ts value → Names ts [] := by
      rintro _ _ (_ | hcolon)
      · exact names_nil
      · exact (names_nil.cons rfl (by simp)).cons hcolon (by simp)
    exact ((names_path hpath).append (hd hdefault)).append (names_filters hfilters)
  | ifTag hword hc | elseif hword hc =>
    exact Directive.reports_of_names (by simp [Directive.name?, hword]) ((names_expr hc).cons hword (by simp))
  | elseIf hword hsecond hc =>
    exact Directive.reports_of_names (by simp [Directive.name?, hword])
      (((names_expr hc).cons hsecond (by simp)).cons hword (by simp))
  | elseTag hword | endifTag hword | endforTag hword =>
    refine (Directive.reports_of_names ?_ (names_nil.cons hword (by simp))).trans rfl
    simp [Directive.name?, hword]
  | forTag hword hname hsecond hsource =>
    have hfilters := (names_loopSource hsource).cons hsecond (by simp)
    exact Directive.reports_of_names (by simp [Directive.name?, hword])
      ((hfilters.cons hname (by simp)).cons hword (by simp))
  | opening hname htag =>
    simp [Directive.reports, Directive.messages, Directive.name?, hname, htag, Head.diagnostics,
      Unsupported.diagnostics, Diagnostic.report, Diagnostic.message, Diagnostic.Construct.message]
  | closing hname htext htag =>
    simp [Directive.reports, Directive.messages, Directive.name?, hname, htext, htag, Head.diagnostics,
      Unsupported.diagnostics, Dialect.end_not_mem_unsupportedTags]

end

/-! ## Templates -/

/-- The variables and tags of `ts` are reported as `diagnostics`, whatever comes after. -/
def Reports (source : Text) (ts : List Token) (diagnostics : List Diagnostic) : Prop :=
  ∀ rest, (Token.directives (ts ++ rest)).flatMap (Directive.reports source) =
    diagnostics.map Diagnostic.report ++ (Token.directives rest).flatMap (Directive.reports source)

/-- The diagnostics of a part of a template. -/
def Grammar.Phrase.diagnostics : Phrase → List Diagnostic
  | .node n => n.diagnostics
  | .nodes t => Template.diagnostics t
  | .alternative a => a.diagnostics

section
variable {source : Text} {ts us : List Token}

theorem Reports.append {ds es : List Diagnostic} (h : Reports source ts ds) (h' : Reports source us es) :
    Reports source (ts ++ us) (ds ++ es) := by
  intro rest
  rw [List.append_assoc, h, h', List.map_append, List.append_assoc]

theorem reports_directive {d : Delim} {head : Head} {span : Span} (h : (tokens source).directive d ts head span)
    (hd : d ≠ .comment) : Reports source ts (head.diagnostics span) := by
  obtain ⟨opening, inner, closing, rfl, hopening, hclosing, hhead, rfl⟩ := h
  intro rest
  rw [List.cons_append, List.append_assoc, List.singleton_append,
    Token.directives_markup_cons hd hopening hclosing (unclosed_head hhead), List.flatMap_cons]
  exact congrArg (· ++ _) (Directive.reports_of_head hhead)

theorem reports_comment {raw : Text} (h : (tokens source).comment ts raw) : Reports source ts [] := by
  obtain ⟨opening, body, closing, rfl, hopening, hclosing, hbody, -⟩ := h
  have hunclosed : Unclosed .comment body := by
    rcases hbody with rfl | ⟨t, rfl, ht⟩
    · exact unclosed_nil
    · simp [Unclosed, ht]
  intro rest
  rw [List.cons_append, List.append_assoc, List.singleton_append,
    Token.directives_comment_cons hopening hclosing hunclosed]
  rfl

/-- **The tokens of a part of a template are reported as its diagnostics.** -/
theorem reports_blocks {phrase : Phrase} (h : Blocks (tokens source) ts phrase) :
    Reports source ts phrase.diagnostics := by
  induction h with
  | nil => exact fun _ => rfl
  | cons _ _ ihf ihm => exact ihf.append ihm
  | text h =>
    obtain ⟨o, rfl⟩ := h
    intro rest
    rw [List.singleton_append, Token.directives_text_cons]
    rfl
  | comment h => exact reports_comment h
  | var h => exact reports_directive h (by simp)
  | unsupported h => exact reports_directive h (by simp)
  | endif h => exact reports_directive h (by simp)
  | ifBlock htag _ _ ihb ihm | elseif htag _ _ ihb ihm =>
    intro rest
    rw [(reports_directive htag (by simp)).append (ihb.append ihm)]
    simp [Phrase.diagnostics, Node.diagnostics, Alternative.diagnostics, Head.diagnostics]
  | forBlock htag _ hclose ihb | otherwise htag _ hclose ihb =>
    intro rest
    rw [(reports_directive htag (by simp)).append (ihb.append (reports_directive hclose (by simp)))]
    simp [Phrase.diagnostics, Node.diagnostics, Alternative.diagnostics, Head.diagnostics]

end

/-- What is reported of a source is what its tokens say about its directives. -/
theorem Template.reports_of_parse {source ns : Text} {ts : List Token} {t : Template}
    (hscan : Token.scan source = .ok ts) (h : Template.parse source ns = .ok t) :
    (Template.diagnostics t).map Diagnostic.report = (Token.directives ts).flatMap (Directive.reports source) := by
  obtain ⟨ts', hscan', htokens⟩ := Template.parse_eq_ok_iff.1 h
  cases hscan.symm.trans hscan'
  have hts := (Token.scan_eq_ok_iff.1 hscan).orderly
  have hall := reports_blocks ((Template.ofTokens_eq_ok_iff hts).1 htokens).1 []
  simpa [Phrase.diagnostics] using hall.symm

/-! ## Places of directives -/

section
variable {source : Text} {ts : List Token}

theorem Block.markup?_eq_some_iff {b : Block} {dir : Directive} :
    b.markup? = some dir ↔ b = .directive dir ∧ dir.delim ≠ .comment := by
  cases b with
  | text t => simp [Block.markup?]
  | directive dir' =>
    simp only [Block.markup?, Block.directive.injEq]
    split
    · rename_i hcomment
      simp only [reduceCtorEq, false_iff, not_and, not_not]
      rintro rfl
      exact hcomment
    · rename_i hmarkup
      simp only [Option.some.injEq, iff_self_and]
      rintro rfl
      exact hmarkup

theorem Token.mem_directives {dir : Directive} (h : dir ∈ Token.directives ts) :
    Block.directive dir ∈ Token.blocks ts ∧ dir.delim ≠ .comment := by
  obtain ⟨b, hb, hdir⟩ := List.mem_filterMap.1 h
  obtain ⟨rfl, hmarkup⟩ := Block.markup?_eq_some_iff.1 hdir
  exact ⟨hb, hmarkup⟩

theorem Block.Placed.cutOut {dir : Directive} (h : (Block.directive dir).Placed source) : dir.CutOut source := by
  cases h with
  | @directive d before body after inner hsource hcloses hinside =>
    refine ⟨before, body, after, hsource, rfl, slice_of_eq hsource rfl ?_, fun x y => hcloses.first⟩
    simp [Directive.start, Directive.stop, Token.stop, Delim.byteSize_enclose, Nat.add_assoc]

/-- No directive starts before one that stands before it. -/
theorem WellBracketed.start_le (h : WellBracketed source ts) :
    (Token.directives ts).Pairwise fun a b => a.start ≤ b.start := by
  have htokens := h.ordered
  rw [← h.tokens, List.pairwise_flatMap] at htokens
  have hblocks : (Token.blocks ts).Pairwise fun a b => a.start ≤ b.start := by
    refine htokens.2.imp fun {a b} hab => ?_
    obtain ⟨t, ht, hstart⟩ := a.head?_tokens
    obtain ⟨u, hu, hstart'⟩ := b.head?_tokens
    have hle := hab t (List.mem_of_mem_head? ht) u (List.mem_of_mem_head? hu)
    rw [← hstart, ← hstart']
    exact (Nat.le_add_right _ _).trans hle
  refine List.Pairwise.filterMap _ (fun a b hab x hx y hy => ?_) hblocks
  obtain ⟨rfl, -⟩ := Block.markup?_eq_some_iff.1 hx
  obtain ⟨rfl, -⟩ := Block.markup?_eq_some_iff.1 hy
  exact hab

theorem Directive.offset_of_mem_reports {dir : Directive} {r : String × Text × Nat} (h : r ∈ dir.reports source) :
    r.2.2 = dir.start := by
  obtain ⟨_, -, rfl⟩ := List.mem_map.1 h
  rfl

end

/-- **Exactly the unsupported constructs of a source are reported**, in its order: what its variables
and tags lack, each with its directive from the opener to the first closer behind it. -/
theorem migrate_reports {settings : Settings} {source : Text} {m : Migration} (h : migrate settings source = .ok m) :
    ∃ ts, Token.scan source = .ok ts ∧
      m.diagnostics.map (fun d => (d.message, d.snippet, d.offset)) =
        (Token.directives ts).flatMap (Directive.reports source) ∧
      (∀ dir ∈ Token.directives ts, dir.opening.kind = .opener dir.delim ∧ dir.CutOut source) ∧
      m.diagnostics.Pairwise fun d e => d.offset ≤ e.offset := by
  obtain ⟨-, t, hparse, -, rfl⟩ := migrate_eq_ok_iff.1 h
  obtain ⟨ts, hscan, -⟩ := Template.parse_eq_ok_iff.1 hparse
  have hscans := Token.scan_eq_ok_iff.1 hscan
  have hreports := Template.reports_of_parse hscan hparse
  refine ⟨ts, hscan, hreports, fun dir hdir => ?_, ?_⟩
  · obtain ⟨hblock, -⟩ := Token.mem_directives hdir
    exact ⟨(hscans.wellBracketed.blocks _ hblock).1.1, (hscans.placed [] rfl rfl _ hblock).cutOut⟩
  · have hoffsets : ((Template.diagnostics t).map Diagnostic.report).Pairwise fun r s => r.2.2 ≤ s.2.2 := by
      rw [hreports, List.pairwise_flatMap]
      refine ⟨fun dir _ => List.pairwise_of_forall_mem_list fun r hr s hs => ?_,
        hscans.wellBracketed.start_le.imp fun hle r hr s hs => ?_⟩
      · rw [Directive.offset_of_mem_reports hr, Directive.offset_of_mem_reports hs]
      · rwa [Directive.offset_of_mem_reports hr, Directive.offset_of_mem_reports hs]
    rw [List.pairwise_map] at hoffsets
    exact hoffsets

/-- Filters in a group of a condition, in a loop and behind a default, an unsupported tag that holds a
bar, and the tag that ends it. -/
theorem migrate_reports_nested : ∃ source m,
    (source = "é".toList ++
      Delim.tag.enclose "if not (a|trans == b|upper|raw)".toList ++ Delim.tag.enclose "else if c|batch(2)".toList ++
      Delim.tag.enclose "endif".toList ++ Delim.tag.enclose "block x|raw".toList ++
      Delim.tag.enclose "for i in xs|raw".toList ++ Delim.comment.enclose "|raw".toList ++
      Delim.var.enclose "i:'|raw'|raw".toList ++ Delim.tag.enclose "endfor".toList ++
      Delim.tag.enclose "endblock|raw".toList ∧
    migrate ⟨false, "params".toList⟩ source = .ok m ∧
    m.diagnostics.map (fun d => (d.message, d.offset)) =
      [("Filter 'trans' is not supported in Brevo", 2), ("Filter 'raw' is not supported in Brevo", 2),
        ("Filter 'batch' is not supported in Brevo", 37), ("Tag 'block' is not supported in Brevo", 68),
        ("Filter 'raw' is not supported in Brevo", 83), ("Filter 'raw' is not supported in Brevo", 110)]) ∧
    ∃ ts, Token.scan source = .ok ts ∧
      m.diagnostics.map (fun d => (d.message, d.snippet, d.offset)) =
        (Token.directives ts).flatMap (Directive.reports source) ∧
      (∀ dir ∈ Token.directives ts, dir.opening.kind = .opener dir.delim ∧ dir.CutOut source) ∧
      m.diagnostics.Pairwise fun d e => d.offset ≤ e.offset := by
  refine ⟨_, (exists_ok_of_toOption ?_).imp fun m h => ⟨⟨rfl, h⟩, migrate_reports h.1⟩⟩
  decide +kernel

end MailDialect
