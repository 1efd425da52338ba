import MailDialect.Proofs.Cleanness
import MailDialect.Proofs.Namespaces
import MailDialect.Proofs.Passes
import MailDialect.Proofs.Points

/-!
# Namespaces that cannot be read back

A namespace is a word, but a word may be reserved, and then it is no name in the text that is written.
What was brought over can be brought over again exactly if the namespace is not reserved or no parameter
was written with it (`migrate_output_iff`). The scanner has no trouble with either: it is the grammar that
has no place for a keyword with properties.
-/

namespace MailDialect

open Grammar

/-! ## Writing under a reserved namespace -/

/-- Tokens behind which points are looked at anew, and which are out of place if `param` holds. -/
def Trips (param : Prop) (ts : List Token) : Prop := Passes ts ∧ (param → Stuck ts)

section
variable {param other : Prop} {ts us vs : List Token}

theorem Pointless.trips (h : Pointless ts) (hparam : ¬param) : Trips param ts := ⟨h.passes, fun hp => (hparam hp).elim⟩

theorem Trips.imp (h : Trips param ts) (himp : other → param) : Trips other ts := ⟨h.1, fun ho => h.2 (himp ho)⟩

theorem Trips.behind (h : Trips param ts) (hus : Passes us) : Trips param (us ++ ts) :=
  ⟨hus.append h.1, fun hp => hus.stuck (h.2 hp)⟩

theorem Trips.before (h : Trips param ts) (hus : Passes us) : Trips param (ts ++ us) :=
  ⟨h.1.append hus, fun hp => (h.2 hp).append us⟩

theorem Trips.join (h : Trips param ts) (hvs : Passes vs) (h' : Trips other us) :
    Trips (param ∨ other) (ts ++ (vs ++ us)) := by
  refine ⟨h.1.append (hvs.append h'.1), ?_⟩
  rintro (hp | ho)
  · exact (h.2 hp).append _
  · exact h.1.stuck (hvs.stuck (h'.2 ho))

end

theorem Path.params_ne_nil {ps qs : List Path} :
    Path.params (ps ++ qs) ≠ [] ↔ Path.params ps ≠ [] ∨ Path.params qs ≠ [] := by
  rw [Path.params, List.filter_append, ne_eq, List.append_eq_nil_iff, not_and_or]
  rfl

theorem Path.params_one {p : Path} : Path.params [p] ≠ [] ↔ p.scope = .param := by
  by_cases hparam : p.scope = .param <;> simp [Path.params, hparam]

section
variable {d : Delim} {ns : Text} {k : Keyword} {ts : List Token} (hns : ns.isWord) (hk : Keyword.ofWord? ns = some k)
include hns hk

/-- A parameter is written as a keyword with properties. -/
theorem trips_path {p : Path} {marked : Bool} (h : IsPath ts p marked) (hts : Good d ts) :
    Spells d false false EndsWord (p.print ns) (Trips (Path.params [p] ≠ [])) := by
  obtain ⟨hbase, hfields⟩ := fits_of_isPath h hts
  have hword : ∀ w : Text, Lexeme.wordKind w ≠ .punct .dot := by
    intro w
    unfold Lexeme.wordKind
    split <;> simp
  rw [Path.print_eq, Path.params_one]
  obtain ⟨base, fields, scope⟩ := p
  cases scope with
  | param =>
    have hsegments := List.forall_mem_cons.2 ⟨.inl hbase.1, hfields⟩
    refine (spells_segments (p := ⟨ns, base :: fields, .namespaced⟩) hns hsegments).imp ?_
    rintro _ ⟨t, us, rfl, ht, -, hus⟩
    refine ⟨(passes_one (by rw [ht]; exact hword _)).append (passes_fields hus), fun _ => ?_⟩
    exact stuck_keyword (by rw [ht, Lexeme.wordKind, hk]) hus
  | loopLocal | namespaced =>
    refine (spells_segments hbase.1 hfields).imp ?_
    rintro _ ⟨t, us, rfl, ht, -, hus⟩
    exact ⟨(passes_one (by rw [ht]; exact hword _)).append (passes_fields hus), by simp⟩

theorem trips_path_filters {us : List Token} {p : Path} {marked : Bool} {fs : List Filter}
    (hpath : IsPath ts p marked) (hfilters : IsFilters us fs) (hts : Good d (ts ++ us)) :
    Spells d false false EndsLexeme (p.print ns ++ Filter.printAll fs) (Trips (Path.params [p] ≠ [])) := by
  refine ((trips_path hns hk hpath hts.append.1).append (spells_filters hfilters hts.append.2)
    fun _ hrest => (endsLexeme_printAll hrest).endsWord).imp ?_
  rintro _ ⟨us, vs, rfl, hus, hvs⟩
  exact hus.before (pointless_filters hvs).passes

/-- A condition with a parameter is written with a point that is out of place. -/
theorem trips_expr {level : Level} {e : Expr} (h : IsExpr level ts e) (hts : Good d ts) :
    Spells d false false EndsLexeme (e.print ns) (Trips (Path.params e.paths ≠ [])) := by
  induction h with
  | path hpath => exact (trips_path hns hk hpath hts).before fun _ => EndsLexeme.endsWord
  | filtered hpath hfilters => exact trips_path_filters hns hk hpath hfilters hts
  | literal hliteral =>
    exact (spells_literal hliteral hts).imp fun _ h => (pointless_literal h).trips (by simp [Expr.paths, Path.params])
  | group _ _ _ ih =>
    have hinner := (ih hts.tail.append.1).closing
    refine ((Spells.punct_cons (c := '(') (p := .lparen) (by simp) rfl hinner).before fun _ _ => trivial).imp ?_
    rintro _ ⟨t, _, rfl, ht, us, t', rfl, hus, ht'⟩
    exact (hus.before (passes_one (by simp [ht']))).behind (passes_one (by simp [ht]))
  | single _ ih | affirmed _ ih | conjunct _ ih | disjunct _ ih => exact ih hts
  | @compare operator ts us op a b _ _ _ iha ihb =>
    refine ((iha hts.append.1).join (spells_comparison op) (ihb hts.append.2.tail)).imp ?_
    rintro _ ⟨us, _, vs, rfl, hus, ⟨o, rfl⟩, hvs⟩
    exact (hus.join (passes_one (by simp)) hvs).imp Path.params_ne_nil.1
  | not _ _ ih =>
    refine (Spells.word_cons (w := ['n', 'o', 't']) (by decide) (ih hts.tail)).imp ?_
    rintro _ ⟨t, us, rfl, ht, -, hus⟩
    exact hus.behind (passes_one (by rw [ht]; decide))
  | and _ _ _ iha ihb =>
    have hword : Spells d false false _ Connective.and.spelling _ := spells_keyword (by decide) rfl
    refine ((iha hts.append.1).join hword (ihb hts.append.2.tail)).imp ?_
    rintro _ ⟨us, _, vs, rfl, hus, ⟨t, rfl, ht⟩, hvs⟩
    exact (hus.join (passes_one (by simp [ht])) hvs).imp Path.params_ne_nil.1
  | or _ _ _ iha ihb =>
    have hword : Spells d false false _ Connective.or.spelling _ := spells_keyword (by decide) rfl
    refine ((iha hts.append.1).join hword (ihb hts.append.2.tail)).imp ?_
    rintro _ ⟨us, _, vs, rfl, hus, ⟨t, rfl, ht⟩, hvs⟩
    exact (hus.join (passes_one (by simp [ht])) hvs).imp Path.params_ne_nil.1

end

/-! ## The parameters of a directive -/

/-- The parameters that a directive is written with. -/
def Grammar.Head.parameters : Head → List Path
  | .var p _ fs _ => parametersOf (occurrencesOf [] fs [p])
  | .ifTag c => parametersOf (occurrencesOf [] c.filters c.paths)
  | .elseifTag c => parametersOf (occurrencesOf [] c.filters c.paths)
  | .forTag _ source => parametersOf (occurrencesOf [] source.filters source.paths)
  | .elseTag => []
  | .endifTag => []
  | .endforTag => []
  | .unsupported _ _ => []

/-- Loops have no part in which parameters are written. -/
theorem parametersOf_loops (loops : List Text) (fs : List Filter) (ps : List Path) :
    parametersOf (occurrencesOf loops fs ps) = parametersOf (occurrencesOf [] fs ps) := by
  rw [parametersOf_occurrencesOf, parametersOf_occurrencesOf]

theorem parametersOf_ne_nil {loops : List Text} {fs : List Filter} {ps : List Path} :
    parametersOf (occurrencesOf loops fs ps) ≠ [] ↔ ¬fs.any Filter.isUnsupported ∧ Path.params ps ≠ [] := by
  rw [parametersOf_occurrencesOf]
  by_cases hkept : fs.any Filter.isUnsupported
  · simp [hkept]
  · simp [hkept]

mutual

theorem Node.parametersOf_occurrences (loops : List Text) : ∀ n : Node,
    parametersOf (n.occurrences loops) = n.heads.flatMap Head.parameters
  | .text _ => rfl
  | .comment _ => rfl
  | .unsupported _ => rfl
  | .var v => by
    rw [Node.occurrences, parametersOf_loops, Node.heads, List.flatMap_singleton]
    rfl
  | .ifBlock c tag body more => by
    rw [Node.occurrences, parametersOf_append, parametersOf_append, parametersOf_loops,
      Template.parametersOf_occurrences, Alternative.parametersOf_occurrences, Node.heads, List.flatMap_cons,
      List.flatMap_append]
    rfl
  | .forBlock name source tag body => by
    rw [Node.occurrences, parametersOf_append, parametersOf_loops, Template.parametersOf_occurrences, Node.heads,
      List.flatMap_cons, List.flatMap_append, List.flatMap_singleton]
    exact congrArg _ (List.append_nil _).symm

theorem Alternative.parametersOf_occurrences (loops : List Text) : ∀ a : Alternative,
    parametersOf (a.occurrences loops) = a.heads.flatMap Head.parameters
  | .endif => rfl
  | .otherwise body => by
    rw [Alternative.occurrences, Template.parametersOf_occurrences, Alternative.heads, List.flatMap_cons,
      List.flatMap_append, List.flatMap_singleton]
    exact (List.append_nil _).symm
  | .elseif c tag body more => by
    rw [Alternative.occurrences, parametersOf_append, parametersOf_append, parametersOf_loops,
      Template.parametersOf_occurrences, Alternative.parametersOf_occurrences, Alternative.heads, List.flatMap_cons,
      List.flatMap_append]
    rfl

/-- The parameters that a template is written with are those of its directives. -/
theorem Template.parametersOf_occurrences (loops : List Text) : ∀ t : Template,
    parametersOf (Template.occurrences loops t) = (Template.heads t).flatMap Head.parameters
  | [] => rfl
  | n :: t => by
    rw [Template.occurrences, parametersOf_append, Node.parametersOf_occurrences, Template.parametersOf_occurrences,
      Template.heads, List.flatMap_append]

end

/-! ## Directives that cannot be read back -/

/-- Tokens that no directive `d` has: a point is out of place, and a tag does not start with a name, so that
it is not an unsupported one. -/
def Jammed (d : Delim) (ts : List Token) : Prop :=
  Stuck ts ∧ (d = .tag → ∃ t us k, ts = t :: us ∧ t.kind = .keyword k)

theorem Jammed.not_isHead {d : Delim} {ts : List Token} {head : Head} (h : Jammed d ts) : ¬IsHead d ts head := by
  intro hhead
  obtain ⟨hstuck, hfirst⟩ := h
  refine hstuck false [] ?_
  rw [List.append_nil]
  refine pointed_head hhead ?_
  rintro name closing rfl
  have hname : ∃ t us, ts = t :: us ∧ t.kind = .name ∧ d = .tag := by
    cases hhead with
    | opening hname => exact ⟨_, _, rfl, hname, rfl⟩
    | closing hname => exact ⟨_, _, rfl, hname, rfl⟩
  obtain ⟨t, us, rfl, ht, rfl⟩ := hname
  obtain ⟨_, _, k, heq, hk⟩ := hfirst rfl
  cases heq
  rw [ht] at hk
  cases hk

section
variable {ns : Text} {k : Keyword} (hns : ns.isWord) (hk : Keyword.ofWord? ns = some k)
include hns hk

theorem jammed_condition {c : Expr} {span : Span} {word : Text} {first : Keyword} {us : List Token}
    (hword : word.isWord) (hfirst : Keyword.ofWord? word = some first) (hc : IsExpr .condition us c)
    (hus : Good .tag us) (hparams : parametersOf (occurrencesOf [] c.filters c.paths) ≠ []) :
    Enclosed .tag (c.printTag ns word span) (Jammed .tag) := by
  obtain ⟨hkept, hparam⟩ := parametersOf_ne_nil.1 hparams
  rw [Expr.printTag, if_neg hkept]
  refine ((Spells.word_cons hword (trips_expr hns hk hc hus)).imp ?_).enclosed_tag
  rintro _ ⟨t, us, rfl, ht, -, htrips⟩
  have hkind : t.kind = .keyword first := by rw [ht, Lexeme.wordKind, hfirst]
  have hpasses : Passes [t] := passes_one (by simp [hkind])
  exact ⟨hpasses.stuck (htrips.2 hparam), fun _ => ⟨t, us, first, rfl, hkind⟩⟩

/-- **A directive with a parameter is written as a directive that cannot be read.** -/
theorem jammed_print {d : Delim} {head : Head} {span : Span} (h : Written d head span.raw)
    (hparams : head.parameters ≠ []) : Enclosed d (head.print ns span) (Jammed d) := by
  obtain ⟨inner, hgood, hhead⟩ := h.good
  cases hhead with
  | @var _ _ _ p marked default fs hpath hdefault hfilters =>
    obtain ⟨hkept, hparam⟩ := parametersOf_ne_nil.1 hparams
    have hforeign : Variable.isForeign ⟨p, default, fs, marked, span⟩ := by
      simp [Variable.isForeign, Path.params_one.1 hparam]
    have hprint : Head.print ns span (.var p default fs marked) = Delim.var.enclose
        (p.print ns ++ Variable.printDefault ⟨p, default, fs, marked, span⟩ ++ Filter.printAll fs) :=
      if_neg (by simp [hkept, hforeign])
    rw [hprint]
    obtain ⟨hfront, hback⟩ := hgood.append
    have hspells := (trips_path hns hk hpath hfront.append.1).append
      (spells_default (v := ⟨p, default, fs, marked, span⟩) hdefault hfront.append.2)
      fun _ hrest => (endsLexeme_printDefault hrest).endsWord
    refine ((hspells.append (spells_filters hfilters hback) fun _ => endsLexeme_printAll).imp ?_).enclosed .nil
    rintro _ ⟨_, vs, rfl, ⟨us, ws, rfl, hus, -⟩, -⟩
    exact ⟨((hus.2 hparam).append ws).append vs, by simp⟩
  | ifTag _ hc => exact jammed_condition hns hk (by decide) rfl hc hgood.tail hparams
  | elseif _ hc => exact jammed_condition hns hk (by decide) rfl hc hgood.tail hparams
  | elseIf _ _ hc => exact jammed_condition hns hk (by decide) rfl hc hgood.tail.tail hparams
  | forTag hword hname hsecond hsource =>
    obtain ⟨hkept, hparam⟩ := parametersOf_ne_nil.1 hparams
    cases hsource with
    | range => exact (hparam rfl).elim
    | @collection _ _ p _ fs hpath hfilters =>
      rw [LoopSource.filters] at hkept
      rw [Head.print, LoopSource.printTag, if_neg hkept, List.append_assoc _ (p.print ns)]
      have hover := trips_path_filters hns hk hpath hfilters hgood.tail.tail.tail
      refine ((Spells.for_cons (hgood.tail.isName hname) hover).imp ?_).enclosed_tag
      rintro _ ⟨t, t', t'', us, rfl, ht, ht', -, ht'', hus⟩
      have hpasses : Passes [t, t', t''] := by
        refine Pointless.passes ?_
        simp [Pointless, ht, ht', ht'']
      exact ⟨hpasses.stuck (hus.2 hparam), fun _ => ⟨t, _, _, rfl, ht⟩⟩
  | elseTag | endifTag | endforTag | opening | closing => exact (hparams rfl).elim

end

/-! ## Texts that cannot be read back -/

/-- In pieces that spell a template every variable and tag says something. -/
theorem written_of_blocks {ps : List Piece} {phrase : Phrase} (h : Blocks pieces ps phrase)
    (hwhole : ∀ p ∈ ps, p.Whole) {d : Delim} {body : Text} (hd : d ≠ .comment) (hp : .directive d body ∈ ps) :
    ∃ head, Written d head (d.enclose body) := by
  have hsays : ∀ {ps : List Piece} {e : Delim} {head : Head} {span : Span}, pieces.directive e ps head span →
      (∀ p ∈ ps, p.Whole) → .directive d body ∈ ps → ∃ head, Written d head (d.enclose body) := by
    intro ps e head span hdirective hwhole hp
    have hwritten := written_of_pieces hdirective hwhole
    obtain ⟨body', _, _, rfl, hraw, -⟩ := hdirective
    cases List.mem_singleton.1 hp
    rw [hraw] at hwritten
    exact ⟨head, hwritten⟩
  induction h with
  | nil => cases hp
  | cons _ _ ihf ihm =>
    obtain ⟨hfirst, hmore⟩ := List.forall_mem_append.1 hwhole
    rcases List.mem_append.1 hp with hp | hp
    · exact ihf hfirst hp
    · exact ihm hmore hp
  | text h =>
    cases h
    cases List.mem_singleton.1 hp
  | comment h =>
    obtain ⟨_, rfl, -⟩ := h
    cases List.mem_singleton.1 hp
    exact (hd rfl).elim
  | var h | unsupported h | endif h => exact hsays h hwhole hp
  | ifBlock htag _ _ ihb ihm | elseif htag _ _ ihb ihm =>
    obtain ⟨hfirst, hrest⟩ := List.forall_mem_append.1 hwhole
    obtain ⟨hbody, hmore⟩ := List.forall_mem_append.1 hrest
    rcases List.mem_append.1 hp with hp | hp
    · exact hsays htag hfirst hp
    · rcases List.mem_append.1 hp with hp | hp
      · exact ihb hbody hp
      · exact ihm hmore hp
  | forBlock htag _ hclose ihb | otherwise htag _ hclose ihb =>
    obtain ⟨hfirst, hrest⟩ := List.forall_mem_append.1 hwhole
    obtain ⟨hbody, hlast⟩ := List.forall_mem_append.1 hrest
    rcases List.mem_append.1 hp with hp | hp
    · exact hsays htag hfirst hp
    · rcases List.mem_append.1 hp with hp | hp
      · exact ihb hbody hp
      · exact hsays hclose hlast hp

section
variable {ns source : Text} {k : Keyword} {t : Template}

/-- A directive with a parameter turns into one that cannot be read. -/
theorem Respells.jammed {ps qs : List Piece} {heads : List Head} {head : Head} (hns : ns.isWord)
    (hk : Keyword.ofWord? ns = some k) (h : Respells ns ps heads qs) (hwhole : ∀ p ∈ ps, p.Whole)
    (hmem : head ∈ heads) (hparams : head.parameters ≠ []) :
    ∃ d body, .directive d body ∈ qs ∧ d ≠ .comment ∧ Enclosed d (d.enclose body) (Jammed d) := by
  induction h with
  | nil => cases hmem
  | quiet _ _ ih =>
    obtain ⟨d, body, hbody, hjammed⟩ := ih (List.forall_mem_cons.1 hwhole).2 hmem
    exact ⟨d, body, List.mem_cons_of_mem _ hbody, hjammed⟩
  | @markup d body body' first start _ inner _ _ _ _ hd hlexes hhead _ _ hprint _ ih =>
    obtain ⟨hcloses, hothers⟩ := List.forall_mem_cons.1 hwhole
    rcases List.mem_cons.1 hmem with rfl | hlater
    · have hwritten : Written d head (Span.raw ⟨d.enclose body, 0⟩) := ⟨body, start, inner, rfl, hcloses, hlexes, hhead⟩
      have hjammed := jammed_print hns hk hwritten hparams
      rw [hprint] at hjammed
      exact ⟨d, body', List.mem_cons_self, hd, hjammed⟩
    · obtain ⟨d', body'', hbody, hjammed⟩ := ih hothers hlater
      exact ⟨d', body'', List.mem_cons_of_mem _ hbody, hjammed⟩

/-- What is written has tokens, and comes apart into pieces that turned out of those of the source. -/
theorem Template.scan_print (hns : ns.isWord) (h : Template.parse source ns = .ok t) :
    ∃ ps qs us, Row ps ∧ Row qs ∧ Respells ns ps (Template.heads t) qs ∧ raws qs = Template.print ns t ∧
      Lexed 0 qs us ∧ Token.scan (Template.print ns t) = .ok us := by
  obtain ⟨ps, hrow, -, hblocks, -⟩ := Template.pieces_of_parse h
  obtain ⟨qs, hrespells, houtput⟩ := respelled_blocks hns hblocks hrow.1
  obtain ⟨us, hlexed⟩ := hrespells.lexed 0
  have hrow' := hrow.kin (hrespells.kin hrow.1)
  refine ⟨ps, qs, us, hrow, hrow', hrespells, houtput, hlexed, Token.scan_eq_ok_iff.2 ?_⟩
  exact scans_iff_lexed.2 ⟨qs, hrow', houtput, hlexed⟩

/-- **A parameter written under a reserved namespace cannot be read.** -/
theorem Template.parse_print_error (hns : ns.isWord) (hk : Keyword.ofWord? ns = some k)
    (h : Template.parse source ns = .ok t) (hparams : Template.parameters t ≠ []) :
    ∃ e, Template.parse (Template.print ns t) ns = .error (.grammar e) := by
  obtain ⟨ps, qs, us, hrow, hrow', hrespells, houtput, hlexed, hscan⟩ := Template.scan_print hns h
  cases htokens : Template.ofTokens (Template.print ns t) us ns with
  | error e => exact ⟨e, by rw [Template.parse, hscan]; exact congrArg (Except.mapError Failure.grammar) htokens⟩
  | ok t' =>
    exfalso
    have hscans := Token.scan_eq_ok_iff.1 hscan
    obtain ⟨htemplate, -⟩ := (Template.ofTokens_eq_ok_iff hscans.orderly).1 htokens
    -- the pieces that were written would have to spell the template that was read from them
    rw [← List.append_nil us] at hlexed
    have hstands : Stands (Template.print ns t) 0 qs := ⟨[], [], by simp [houtput], rfl⟩
    obtain ⟨used, more, rfl, hmore, hblocks⟩ := pieces_of_tokens htemplate 0 qs [] hlexed hstands
    cases hmore
    rw [List.append_nil] at hrow' hrespells
    rw [Template.parameters, Template.parametersOf_occurrences, ne_eq, List.flatMap_eq_nil_iff] at hparams
    push Not at hparams
    obtain ⟨head, hmem, hhead⟩ := hparams
    obtain ⟨d, body, hbody, hd, hjammed⟩ := hrespells.jammed hns hk hrow.1 hmem hhead
    obtain ⟨head', hwritten⟩ := written_of_blocks hblocks hrow'.1 hd hbody
    obtain ⟨body', start, inner, hsame, -, hlexes, hinner⟩ := hjammed
    obtain rfl : body = body' := List.append_cancel_left (List.append_cancel_right hsame)
    exact hinner.not_isHead (hwritten.tokens (fun a b => isHead_move a b) hlexes)

/-- What is written without parameters can be read, whatever the namespace. -/
theorem Template.parse_print_of_no_parameters (h : Template.parse source ns = .ok t)
    (hparams : Template.parameters t = []) : ∃ t', Template.parse (Template.print ns t) ns = .ok t' ∧
      (Template.diagnostics t').map Diagnostic.content = (Template.diagnostics t).map Diagnostic.content := by
  obtain ⟨ps, hrow, -, hblocks, -⟩ := Template.pieces_of_parse h
  have hname : IsName Dialect.defaultNamespace := ⟨by decide, by decide⟩
  obtain ⟨qs, hkin, htext, hnorm⟩ := rewrites_blocks hname hblocks hrow.1
  obtain ⟨t', hparse, hplaces⟩ := Template.parse_of_pieces (hrow.kin hkin) hnorm ns
  have hsame : raws qs = Template.print ns t := by
    have hfills : Fills [] fun ns => Template.print ns t := hparams ▸ Template.fills_print [] t
    exact htext.trans (hfills.eq_of_nil _ ns)
  rw [hsame] at hparse
  refine ⟨t', hparse, ?_⟩
  rw [← Template.diagnostics_unplaced, hplaces, Template.diagnostics_unplaced, Template.diagnostics_norm]

end

/-! ## Migrations -/

/-- **What was brought over can be brought over again unless a parameter was written under a reserved
namespace.** A namespace is always read back as one word, but as a name only if it is not reserved. If it is,
the output can be brought over exactly if no parameter had to be written, and otherwise the grammar fails. -/
theorem migrate_output_iff {settings : Settings} {source : Text} {m : Migration}
    (h : migrate settings source = .ok m) :
    (∀ rest, ∃ word, Lexeme.read false (settings.ns ++ '.' :: rest) = .ok word ∧ word.text = settings.ns ∧
      (word.kind = .name ↔ Keyword.ofWord? settings.ns = none)) ∧
    ∃ t, Template.parse source settings.ns = .ok t ∧
      ((∃ m', migrate settings m.output = .ok m') ↔
        Keyword.ofWord? settings.ns = none ∨ Template.parameters t = []) ∧
      ∀ e, migrate settings m.output = .error e → ∃ g, e = .grammar g := by
  obtain ⟨hword, t, hparse, hstrict, rfl⟩ := migrate_eq_ok_iff.1 h
  refine ⟨fun rest => ⟨_, Lexeme.read_word hword (by rintro c ⟨⟩; decide), rfl, ?_⟩, t, hparse, ?_⟩
  · cases hk : Keyword.ofWord? settings.ns <;> simp [Lexeme.wordKind, hk]
  · -- whatever can be read is written and reported as before, so that strict settings allow it too
    have hagain : ∀ t', Template.parse (Template.print settings.ns t) settings.ns = .ok t' →
        (Template.diagnostics t').map Diagnostic.content = (Template.diagnostics t).map Diagnostic.content →
        ∃ m', migrate settings (Template.print settings.ns t) = .ok m' := by
      intro t' hparse' hreports
      refine ⟨_, migrate_eq_ok_iff.2 ⟨hword, t', hparse', fun hs => ?_, rfl⟩⟩
      rw [hstrict hs, List.map_nil, List.map_eq_nil_iff] at hreports
      exact hreports
    have hdone : (∃ m', migrate settings (Template.print settings.ns t) = .ok m') →
        ∀ e, migrate settings (Template.print settings.ns t) = .error e → ∃ g, e = .grammar g := by
      rintro ⟨m', hm⟩ e he
      rw [hm] at he
      cases he
    cases hk : Keyword.ofWord? settings.ns with
    | none =>
      obtain ⟨t', hparse', -, hreports⟩ := Template.parse_written ⟨hword, hk⟩ hparse
      have hok := hagain t' hparse' hreports
      exact ⟨by simpa using hok, hdone hok⟩
    | some k =>
      by_cases hparams : Template.parameters t = []
      · obtain ⟨t', hparse', hreports⟩ := Template.parse_print_of_no_parameters hparse hparams
        have hok := hagain t' hparse' hreports
        exact ⟨by simpa [hparams] using hok, hdone hok⟩
      · obtain ⟨g, hfails⟩ := Template.parse_print_error hword hk hparse hparams
        have herror : migrate settings (Template.print settings.ns t) = .error (.grammar g) := by
          rw [migrate_of_isWord hword, hfails]
        refine ⟨by simp [herror, hparams], fun e he => ⟨g, ?_⟩⟩
        rw [herror] at he
        exact (Except.error.inj he).symm

/-- A parameter in a condition, with a reserved word among its properties, under another reserved word. -/
theorem migrate_output_iff_condition : ∃ m,
    (migrate ⟨true, "not".toList⟩ (Delim.tag.enclose "if not a.or".toList ++ Delim.tag.enclose "endif".toList) = .ok m ∧
      m.output = Delim.tag.enclose " if not not.a.or ".toList ++ Delim.tag.enclose " endif ".toList) ∧
    (∀ rest, ∃ word, Lexeme.read false ("not".toList ++ '.' :: rest) = .ok word ∧ word.text = "not".toList ∧
      (word.kind = .name ↔ Keyword.ofWord? "not".toList = none)) ∧
    ∃ t, Template.parse (Delim.tag.enclose "if not a.or".toList ++ Delim.tag.enclose "endif".toList)
        "not".toList = .ok t ∧
      ((∃ m', migrate ⟨true, "not".toList⟩ m.output = .ok m') ↔
        Keyword.ofWord? "not".toList = none ∨ Template.parameters t = []) ∧
      ∀ e, migrate ⟨true, "not".toList⟩ m.output = .error e → ∃ g, e = .grammar g := by
  refine (exists_ok_of_toOption ?_).imp fun m h => ⟨h, migrate_output_iff h.1⟩
  decide +kernel

/-- A word that passes for a namespace may be reserved: a variable `x` is then brought over to a text that
has no second migration. -/
theorem reserved_namespace_unreadable : ¬ ∀ (settings : Settings) (source : Text) (m : Migration) (e : Failure),
    settings.validate = .ok () → migrate settings source = .ok m → migrate settings m.output = .error e →
    ∃ ds, e = .unconvertible ds := by
  intro hall
  have hfirst : migrate ⟨false, "if".toList⟩ (Delim.var.enclose " x ".toList) =
      .ok ⟨Delim.var.enclose "if.x".toList, []⟩ := by decide +kernel
  have hsecond : migrate ⟨false, "if".toList⟩ (Delim.var.enclose "if.x".toList) =
      .error (.grammar ⟨2, .variableName, .lexeme "if".toList⟩) := by decide +kernel
  obtain ⟨ds, hds⟩ := hall _ _ _ _ (by decide +kernel) hfirst hsecond
  cases hds

end MailDialect
