import MailDialect.Conversion
import MailDialect.Proofs.Concatenation
import MailDialect.Proofs.Frame
import MailDialect.Proofs.Reporting

/-!
# Two passes around a renderer

A renderer that only puts plain text around the markup leaves nothing for the second pass to do, so the
conversion is one migration (`convert_around`). Behind any other renderer the second pass may have more to
report. What it reports of a directive that was reported before is known already, and of every other
directive only the first report gets through (`convert_reports`).
-/

namespace MailDialect

open Grammar

/-! ## Diagnostics of two passes -/

/-- Whether two diagnostics are about directives with the same text. -/
def Diagnostic.sameSnippet (d e : Diagnostic) : Bool := d.snippet == e.snippet

/-- The diagnostics of which no diagnostic of `seen` has the snippet. -/
def Diagnostic.unseen (seen ds : List Diagnostic) : List Diagnostic := ds.filter fun d => !seen.any d.sameSnippet

section
variable {seen ds : List Diagnostic} {d e : Diagnostic}

theorem Diagnostic.sameSnippet_iff : d.sameSnippet e ↔ e.snippet = d.snippet := by
  rw [Diagnostic.sameSnippet, beq_iff_eq, eq_comm]

theorem Diagnostic.any_sameSnippet_iff : seen.any d.sameSnippet ↔ ∃ e ∈ seen, e.snippet = d.snippet := by
  simp [Diagnostic.sameSnippet_iff]

/-- **Adding items one by one, each unless one like it is there, adds the first of each new kind.** -/
theorem foldl_insert_eq {α : Type} (same : α → α → Bool) (seen items : List α) :
    items.foldl (fun seen a => if seen.any (same a) then seen else seen ++ [a]) seen =
      seen ++ (items.filter fun a => !seen.any (same a)).eraseDupsBy same := by
  induction items generalizing seen with
  | nil => simp
  | cons a items ih =>
    rw [List.foldl_cons, ih]
    by_cases hseen : seen.any (same a)
    · rw [if_pos hseen, List.filter_cons_of_neg (by simp [hseen])]
    · have hleft : (items.filter fun b => !(seen ++ [a]).any (same b)) =
          (items.filter fun b => !seen.any (same b)).filter fun b => decide (same b a = false) := by
        rw [List.filter_filter]
        refine List.filter_congr fun b _ => ?_
        simp [Bool.and_comm]
      rw [if_neg hseen, hleft, List.filter_cons_of_pos (by simp [hseen]), List.eraseDupsBy_cons, List.append_assoc]
      rfl

theorem Diagnostic.insert_eq (seen : List Diagnostic) (d : Diagnostic) :
    Diagnostic.insert seen d = if seen.any d.sameSnippet then seen else seen ++ [d] := by
  have hany : (seen.any fun e => e.snippet == d.snippet) = seen.any d.sameSnippet :=
    congrArg seen.any (funext fun e => BEq.comm)
  rw [Diagnostic.insert, hany]

/-- **Of the second list, the first diagnostic with each snippet comes in that the first list has not.** -/
theorem Diagnostic.merge_eq (seen ds : List Diagnostic) :
    Diagnostic.merge seen ds = seen ++ (Diagnostic.unseen seen ds).eraseDupsBy Diagnostic.sameSnippet := by
  have hinsert : Diagnostic.insert = fun seen d => if seen.any d.sameSnippet then seen else seen ++ [d] :=
    funext fun seen => funext fun d => Diagnostic.insert_eq seen d
  rw [Diagnostic.merge, hinsert]
  exact foldl_insert_eq Diagnostic.sameSnippet seen ds

theorem Diagnostic.merge_of_seen (h : ∀ d ∈ ds, ∃ e ∈ seen, e.snippet = d.snippet) :
    Diagnostic.merge seen ds = seen := by
  have hnone : Diagnostic.unseen seen ds = [] := by
    refine List.filter_eq_nil_iff.2 fun d hd => ?_
    simpa using Diagnostic.any_sameSnippet_iff.2 (h d hd)
  rw [Diagnostic.merge_eq, hnone, List.eraseDupsBy_nil, List.append_nil]

theorem find?_filter_of_imp {α : Type} {p q : α → Bool} {l : List α} (h : ∀ a, q a → p a) :
    (l.filter p).find? q = l.find? q := by
  rw [List.find?_filter]
  congr 1
  funext a
  by_cases hq : q a
  · simp [hq, h a hq]
  · simp [hq]

/-- A diagnostic that is no duplicate is the first with its snippet. -/
theorem Diagnostic.mem_firsts_iff {ds : List Diagnostic} :
    e ∈ ds.eraseDupsBy Diagnostic.sameSnippet ↔ ds.find? e.sameSnippet = some e := by
  match ds with
  | [] => simp
  | first :: ds =>
    have hshorter := List.length_filter_le (fun b => decide (Diagnostic.sameSnippet b first = false)) ds
    rw [List.eraseDupsBy_cons, List.mem_cons, mem_firsts_iff]
    by_cases hfirst : e.sameSnippet first
    · rw [List.find?_cons_of_pos hfirst, Option.some.injEq]
      constructor
      · rintro (rfl | hmore)
        · rfl
        · have hother := (List.mem_filter.1 (List.mem_of_find?_eq_some hmore)).2
          simp [hfirst] at hother
      · exact fun h => .inl h.symm
    · have hne : e ≠ first := by
        rintro rfl
        exact hfirst (Diagnostic.sameSnippet_iff.2 rfl)
      have hother : ∀ b, e.sameSnippet b → decide (Diagnostic.sameSnippet b first = false) := by
        intro b hb
        have hb' : ¬b.sameSnippet first := by
          rwa [Diagnostic.sameSnippet_iff, Diagnostic.sameSnippet_iff.1 hb, ← Diagnostic.sameSnippet_iff]
        simpa using hb'
      rw [List.find?_cons_of_neg hfirst, find?_filter_of_imp hother]
      simp only [hne, false_or]
termination_by ds.length
decreasing_by
  rw [List.length_cons]
  omega

theorem Diagnostic.find?_unseen (h : ¬∃ e ∈ seen, e.snippet = d.snippet) :
    (Diagnostic.unseen seen ds).find? d.sameSnippet = ds.find? d.sameSnippet := by
  refine find?_filter_of_imp fun e he => ?_
  have hnew : ¬seen.any e.sameSnippet := by
    rwa [Diagnostic.any_sameSnippet_iff, Diagnostic.sameSnippet_iff.1 he]
  simpa using hnew

theorem Diagnostic.sameSnippet_congr (h : e.snippet = d.snippet) : e.sameSnippet = d.sameSnippet := by
  funext b
  rw [Diagnostic.sameSnippet, Diagnostic.sameSnippet, h]

end

/-! ## What a directive's text tells -/

theorem Delim.enclose_inj {d d' : Delim} {body body' : Text} (h : d.enclose body = d'.enclose body') :
    d = d' ∧ body = body' := by
  have hd : d = d' := by
    have hmark : ∀ e : Delim, ∀ b : Text, (e.enclose b)[1]? = some e.mark.1 := fun _ _ => rfl
    have hmarks := (hmark d body).symm.trans ((congrArg (·[1]?) h).trans (hmark d' body'))
    have hof := congrArg (Option.bind · Delim.ofMark?) hmarks
    simpa [Delim.ofMark?_mark] using hof
  subst hd
  exact ⟨rfl, List.append_cancel_left (List.append_cancel_right h)⟩

theorem Token.barred_move (start place : Nat) (ts : List Token) :
    Token.barred (ts.map (Token.move start place)) = Token.barred ts := by
  fun_induction Token.barred ts with
  | case1 bar name ts hbar ih => exact (if_pos hbar).trans (congrArg (name.text :: ·) ih)
  | case2 bar name ts hbar ih => exact (if_neg hbar).trans ih
  | case3 ts hshort =>
    match ts with
    | [] => rfl
    | [t] => rfl
    | bar :: name :: ts => exact (hshort bar name ts rfl).elim

section
variable {source source' : Text} {dir dir' : Directive}

theorem Block.Placed.lexes (h : (Block.directive dir).Placed source) (hmarkup : dir.delim ≠ .comment) :
    ∃ body start, dir.text source = dir.delim.enclose body ∧ Lexes false start body dir.inner := by
  cases h with
  | @directive d before body after inner hsource hcloses hinside =>
    refine ⟨body, _, slice_of_eq hsource rfl ?_, (inside_iff_lexes hmarkup).1 hinside⟩
    simp [Directive.start, Directive.stop, Token.stop, Delim.byteSize_enclose, Nat.add_assoc]

/-- **What is said about a directive depends on its text alone.** -/
theorem Block.Placed.messages_eq (h : (Block.directive dir).Placed source) (hmarkup : dir.delim ≠ .comment)
    (h' : (Block.directive dir').Placed source') (hmarkup' : dir'.delim ≠ .comment)
    (htext : dir.text source = dir'.text source') : dir.messages = dir'.messages := by
  obtain ⟨body, start, hbody, hlexes⟩ := h.lexes hmarkup
  obtain ⟨body', start', hbody', hlexes'⟩ := h'.lexes hmarkup'
  rw [hbody, hbody'] at htext
  obtain ⟨hdelim, rfl⟩ := Delim.enclose_inj htext
  have hinner := hlexes'.unique (hlexes.move start')
  have hname : dir.name? = dir'.name? := by
    rw [Directive.name?, Directive.name?, hdelim, ← hinner]
    cases dir'.delim <;> cases dir.inner <;> rfl
  have hfilters : dir.filterMessages = dir'.filterMessages := by
    rw [Directive.filterMessages, Directive.filterMessages, ← hinner, Token.barred_move]
  rw [Directive.messages, Directive.messages, hname, hfilters]

end

/-- What is reported of a source, places apart, is what is said about its directives. -/
theorem Template.mem_content_iff {source ns : Text} {t : Template} (h : Template.parse source ns = .ok t) :
    ∃ ts, Scans 0 source ts ∧ ∀ message snippet,
      (message, snippet) ∈ (Template.diagnostics t).map Diagnostic.content ↔
        ∃ dir ∈ Token.directives ts, dir.text source = snippet ∧ message ∈ dir.messages := by
  obtain ⟨ts, hscan, -⟩ := Template.parse_eq_ok_iff.1 h
  have hcontents : (Template.diagnostics t).map Diagnostic.content =
      ((Token.directives ts).flatMap (Directive.reports source)).map fun r => (r.1, r.2.1) := by
    rw [← Template.reports_of_parse hscan h, List.map_map]
    rfl
  refine ⟨ts, Token.scan_eq_ok_iff.1 hscan, fun message snippet => ?_⟩
  rw [hcontents]
  simp only [List.mem_map, List.mem_flatMap, Directive.reports, Prod.mk.injEq]
  constructor
  · rintro ⟨_, ⟨dir, hdir, said, hsaid, rfl⟩, rfl, rfl⟩
    exact ⟨dir, hdir, rfl, hsaid⟩
  · rintro ⟨dir, hdir, rfl, hsaid⟩
    exact ⟨_, ⟨dir, hdir, message, hsaid, rfl⟩, rfl, rfl⟩

/-- **Two sources with a directive in common that is reported in one of them report the same of it.** -/
theorem Template.mem_content_of_snippet {source source' ns ns' : Text} {t t' : Template} {d d' : Diagnostic}
    (h : Template.parse source ns = .ok t) (h' : Template.parse source' ns' = .ok t')
    (hd : d ∈ Template.diagnostics t) (hd' : d' ∈ Template.diagnostics t') (hsnippet : d'.snippet = d.snippet) :
    d.content ∈ (Template.diagnostics t').map Diagnostic.content := by
  obtain ⟨ts, hscans, hreports⟩ := Template.mem_content_iff h
  obtain ⟨ts', hscans', hreports'⟩ := Template.mem_content_iff h'
  obtain ⟨dir, hdir, htext, hsaid⟩ := (hreports d.message d.snippet).1 (List.mem_map_of_mem hd)
  obtain ⟨dir', hdir', htext', -⟩ := (hreports' d'.message d'.snippet).1 (List.mem_map_of_mem hd')
  obtain ⟨hblock, hmarkup⟩ := Token.mem_directives hdir
  obtain ⟨hblock', hmarkup'⟩ := Token.mem_directives hdir'
  have hsame : dir.messages = dir'.messages := by
    have hplaced := hscans.placed [] rfl rfl _ hblock
    have hplaced' := hscans'.placed [] rfl rfl _ hblock'
    exact hplaced.messages_eq hmarkup hplaced' hmarkup' (htext.trans (hsnippet.symm.trans htext'.symm))
  exact (hreports' d.message d.snippet).2 ⟨dir', hdir', by rw [htext', hsnippet], hsame ▸ hsaid⟩

/-! ## Conversions -/

/-- A conversion is a migration, a rendering and a migration of the result. -/
theorem convert_eq_ok {render : Renderer} {settings : Settings} {source : Text} {c : Conversion}
    (h : convert render settings source = .ok c) : ∃ before html after, migrate settings source = .ok before ∧
      render before.output = .ok html ∧ migrate settings html = .ok after ∧
      c = ⟨after.output, Preview.ofSource source, Diagnostic.merge before.diagnostics after.diagnostics⟩ := by
  unfold convert at h
  cases hbefore : migrate settings source with
  | error e => simp [hbefore, bind, Except.bind] at h
  | ok before =>
    cases hhtml : render before.output with
    | error e => simp [hbefore, hhtml, Except.mapError, bind, Except.bind] at h
    | ok html =>
      cases hafter : migrate settings html with
      | error e => simp [hbefore, hhtml, hafter, Except.mapError, bind, Except.bind] at h
      | ok after =>
        simp only [hbefore, hhtml, hafter, Except.mapError, bind, Except.bind, pure, Except.pure,
          Except.ok.injEq] at h
        exact ⟨before, html, after, rfl, hhtml, hafter, h.symm⟩

/-- **What the diagnostics of a conversion hold.** Those of the first pass come first, as they are. Of the
second pass comes in the first diagnostic of every directive that the first pass has not reported. So a
report of the second pass can be found exactly if the first pass has reported its directive, or if it says
what the first report of its directive in the second pass says. -/
theorem convert_reports {render : Renderer} {settings : Settings} {source : Text} {c : Conversion}
    (h : convert render settings source = .ok c) : ∃ before html after, migrate settings source = .ok before ∧
      render before.output = .ok html ∧ migrate settings html = .ok after ∧
      c.diagnostics = before.diagnostics ++
        (Diagnostic.unseen before.diagnostics after.diagnostics).eraseDupsBy Diagnostic.sameSnippet ∧
      ∀ d ∈ after.diagnostics, (∃ e ∈ c.diagnostics, e.message = d.message ∧ e.snippet = d.snippet) ↔
        (∃ e ∈ before.diagnostics, e.snippet = d.snippet) ∨
          ∃ e, after.diagnostics.find? d.sameSnippet = some e ∧ e.message = d.message := by
  obtain ⟨before, html, after, hbefore, hrender, hafter, rfl⟩ := convert_eq_ok h
  refine ⟨before, html, after, hbefore, hrender, hafter, Diagnostic.merge_eq _ _, fun d hd => ?_⟩
  dsimp only
  rw [Diagnostic.merge_eq]
  by_cases hseen : ∃ e ∈ before.diagnostics, e.snippet = d.snippet
  · -- the first pass has reported the directive, and has said all that there is to say about it
    obtain ⟨e, he, hsnippet⟩ := hseen
    obtain ⟨-, t, hparse, -, rfl⟩ := migrate_eq_ok_iff.1 hbefore
    obtain ⟨-, t', hparse', -, rfl⟩ := migrate_eq_ok_iff.1 hafter
    obtain ⟨e', he', hcontent⟩ := List.mem_map.1 (Template.mem_content_of_snippet hparse' hparse hd he hsnippet)
    rw [Diagnostic.content, Diagnostic.content, Prod.mk.injEq] at hcontent
    exact ⟨fun _ => .inl ⟨e, he, hsnippet⟩, fun _ => ⟨e', List.mem_append_left _ he', hcontent⟩⟩
  · constructor
    · rintro ⟨e, he, hmessage, hsnippet⟩
      rcases List.mem_append.1 he with hold | hnew
      · exact (hseen ⟨e, hold, hsnippet⟩).elim
      · rw [Diagnostic.mem_firsts_iff, Diagnostic.sameSnippet_congr hsnippet, Diagnostic.find?_unseen hseen] at hnew
        exact .inr ⟨e, hnew, hmessage⟩
    · rintro (hold | ⟨e, hfirst, hmessage⟩)
      · exact (hseen hold).elim
      · have hsnippet := Diagnostic.sameSnippet_iff.1 (List.find?_some hfirst)
        refine ⟨e, List.mem_append_right _ ?_, hmessage, hsnippet⟩
        rwa [Diagnostic.mem_firsts_iff, Diagnostic.sameSnippet_congr hsnippet, Diagnostic.find?_unseen hseen]

/-- The renderer puts in a variable of which the source has nothing, and a tag that the source has. -/
theorem convert_reports_footer : ∃ c,
    (convert (fun markup => .ok (markup ++ Delim.var.enclose "x|raw".toList))
        ⟨false, "params".toList⟩ (Delim.tag.enclose "set".toList) = .ok c ∧
      c.diagnostics = [⟨.tag "set".toList, Delim.tag.enclose "set".toList, 0⟩,
        ⟨.filter "raw".toList, Delim.var.enclose "x|raw".toList, 7⟩]) ∧
    ∃ before html after, migrate ⟨false, "params".toList⟩ (Delim.tag.enclose "set".toList) = .ok before ∧
      .ok (before.output ++ Delim.var.enclose "x|raw".toList) = (.ok html : Except Text Text) ∧
      migrate ⟨false, "params".toList⟩ html = .ok after ∧
      c.diagnostics = before.diagnostics ++
        (Diagnostic.unseen before.diagnostics after.diagnostics).eraseDupsBy Diagnostic.sameSnippet ∧
      ∀ d ∈ after.diagnostics, (∃ e ∈ c.diagnostics, e.message = d.message ∧ e.snippet = d.snippet) ↔
        (∃ e ∈ before.diagnostics, e.snippet = d.snippet) ∨
          ∃ e, after.diagnostics.find? d.sameSnippet = some e ∧ e.message = d.message := by
  refine (exists_ok_of_toOption ?_).imp fun c h => ⟨h, convert_reports h.1⟩
  decide +kernel

/-- A second report of a directive that only the rendered text has is lost: nothing is said about `trans`. -/
theorem convert_loses_report : ∃ c after d,
    convert (fun _ => .ok (Delim.var.enclose " x|raw|trans ".toList)) ⟨false, "params".toList⟩ "x".toList = .ok c ∧
    migrate ⟨false, "params".toList⟩ (Delim.var.enclose " x|raw|trans ".toList) = .ok after ∧
    d ∈ after.diagnostics ∧ ∀ e ∈ c.diagnostics, e.message ≠ d.message := by
  refine ⟨⟨Delim.var.enclose " x|raw|trans ".toList, [],
      [⟨.filter "raw".toList, Delim.var.enclose " x|raw|trans ".toList, 0⟩]⟩,
    ⟨Delim.var.enclose " x|raw|trans ".toList,
      [⟨.filter "raw".toList, Delim.var.enclose " x|raw|trans ".toList, 0⟩,
        ⟨.filter "trans".toList, Delim.var.enclose " x|raw|trans ".toList, 0⟩]⟩,
    ⟨.filter "trans".toList, Delim.var.enclose " x|raw|trans ".toList, 0⟩, ?_, ?_, ?_, ?_⟩
  · decide +kernel
  · decide +kernel
  · simp
  · decide +kernel

/-! ## Plain text around markup -/

theorem Template.parse_plain {raw : Text} (h : ∀ c ∈ raw, c ≠ '{') (ns : Text) :
    Template.parse raw ns = .ok (Template.plain raw) := by
  have hunopened : Delim.Unopened raw := by
    refine List.Pairwise.isChain (List.pairwise_of_forall_mem_list ?_)
    rintro c hc _ _ ⟨rfl, -⟩
    exact h _ hc rfl
  have hboth : Scans 0 raw (Token.plain 0 raw) ∧ IsTemplate raw (Token.plain 0 raw) (Template.plain raw) := by
    by_cases hraw : raw = []
    · subst hraw
      exact ⟨.nil, .nil⟩
    · rw [Token.plain_of_ne hraw, Template.plain, if_neg hraw]
      refine ⟨?_, .cons (.text (S := tokens raw) ⟨0, rfl⟩) .nil⟩
      have hscans : Scans 0 (raw ++ []) [⟨.text, raw, 0⟩] :=
        .text hraw ⟨by rwa [List.take_nil, List.append_nil], .inl rfl⟩ .nil
      rwa [List.append_nil] at hscans
  obtain ⟨hscans, htemplate⟩ := hboth
  refine Template.parse_eq_ok_iff.2 ⟨_, Token.scan_eq_ok_iff.2 hscans, ?_⟩
  rw [Template.ofTokens_of_isTemplate hscans.orderly htemplate, Template.rescope_plain]

/-- Plain text around a source stays around what is written, and only moves what is reported. -/
theorem Template.parse_around {p q source ns : Text} {t : Template} (h : Template.parse source ns = .ok t)
    (hp : ∀ c ∈ p, c ≠ '{') (hq : ∀ c ∈ q, c ≠ '{' ∧ c ≠ '%' ∧ c ≠ '#') :
    ∃ t', Template.parse (p ++ source ++ q) ns = .ok t' ∧
      Template.print ns t' = p ++ Template.print ns t ++ q ∧
      Template.diagnostics t' = (Template.diagnostics t).map (Diagnostic.shift (Text.byteSize p)) := by
  have hleft := Template.parse_append (b := source) (Template.parse_plain hp ns) fun hbrace =>
    (hp _ (List.mem_of_mem_getLast? hbrace) rfl).elim
  rw [h] at hleft
  obtain ⟨t₁, hparse₁, hprint₁, hreport₁⟩ := hleft
  have hright := Template.parse_append (b := q) hparse₁ fun _ c hc =>
    Delim.ofMark?_eq_none (hq c (List.mem_of_mem_head? hc))
  rw [Template.parse_plain (fun c hc => (hq c hc).1) ns] at hright
  obtain ⟨t₂, hparse₂, hprint₂, hreport₂⟩ := hright
  refine ⟨t₂, hparse₂, ?_, ?_⟩
  · rw [hprint₂, hprint₁, Template.print_plain, Template.print_plain]
  · rw [hreport₂, hreport₁, Template.diagnostics_plain, Template.diagnostics_plain]
    simp

/-- **Around a renderer that only adds plain text, a conversion is one migration**: the output of the
migration stands between the added texts, every diagnostic is there once and at its place in the source,
and the conversion fails as the migration does. -/
theorem convert_around {settings : Settings} {p q : Text} (hfree : Keyword.ofWord? settings.ns = none)
    (hplain : ∀ c ∈ p ++ q, c ≠ '{' ∧ c ≠ '%' ∧ c ≠ '#') (source : Text) :
    convert (fun markup => .ok (p ++ markup ++ q)) settings source =
      (migrate settings source).map fun m => ⟨p ++ m.output ++ q, Preview.ofSource source, m.diagnostics⟩ := by
  obtain ⟨hp, hq⟩ := List.forall_mem_append.1 hplain
  cases hbefore : migrate settings source with
  | error e => simp [convert, hbefore, bind, Except.bind, Except.map]
  | ok before =>
    obtain ⟨hword, t, hparse, hstrict, rfl⟩ := migrate_eq_ok_iff.1 hbefore
    obtain ⟨t₁, hparse₁, hprint₁, hreport₁⟩ := Template.parse_written ⟨hword, hfree⟩ hparse
    obtain ⟨t₂, hparse₂, hprint₂, hreport₂⟩ := Template.parse_around hparse₁ (fun c hc => (hp c hc).1) hq
    have hcontents : (Template.diagnostics t₂).map Diagnostic.content =
        (Template.diagnostics t).map Diagnostic.content := by
      rw [hreport₂, List.map_map, ← hreport₁]
      rfl
    have hafter : migrate settings (p ++ Template.print settings.ns t ++ q) =
        .ok ⟨p ++ Template.print settings.ns t ++ q, Template.diagnostics t₂⟩ := by
      refine migrate_eq_ok_iff.2 ⟨hword, t₂, hparse₂, fun hs => ?_, by rw [hprint₂, hprint₁]⟩
      rw [hstrict hs, List.map_nil, List.map_eq_nil_iff] at hcontents
      exact hcontents
    have hmerge : Diagnostic.merge (Template.diagnostics t) (Template.diagnostics t₂) = Template.diagnostics t := by
      refine Diagnostic.merge_of_seen fun d hd => ?_
      have hcontent : d.content ∈ (Template.diagnostics t).map Diagnostic.content :=
        hcontents ▸ List.mem_map_of_mem hd
      obtain ⟨e, he, hsame⟩ := List.mem_map.1 hcontent
      exact ⟨e, he, congrArg Prod.snd hsame⟩
    simp only [convert, hbefore, hafter, hmerge, Except.mapError, Except.map, bind, Except.bind, pure, Except.pure]

/-- Two reports with one snippet stay two, and the text around may hold closing braces. -/
theorem convert_around_repeated : ∃ settings p q source,
    (settings = ⟨false, "params".toList⟩ ∧ p = "<p>\x7d\x7d".toList ∧ q = "é</p>".toList ∧
      source = Delim.var.enclose "x|raw|raw".toList ++ Delim.var.enclose "var:y:'z'".toList ++ "\x7b".toList) ∧
    convert (fun markup => .ok (p ++ markup ++ q)) settings source =
      (migrate settings source).map fun m => ⟨p ++ m.output ++ q, Preview.ofSource source, m.diagnostics⟩ :=
  ⟨_, _, _, _, ⟨rfl, rfl, rfl, rfl⟩, convert_around (by decide) (by simp) _⟩

end MailDialect
