import MailDialect.Proofs.Location
import MailDialect.Proofs.Parsing
import Mathlib.Logic.Relation

/-!
# What reading cuts out of a source

A directive keeps the piece of source it was read from. The piece is cut out as soon as the closer is
read, so also in a run that fails later, in the body of a block say. A run is followed here by the calls
its readers make: a call that is made from a sound place stands at a sound place itself, inside a
directive whose opener lies behind it. Main statement: `Template.failures_located`, on the errors of a
template and on every piece that is cut out.
-/

namespace MailDialect

/-! ## Pieces of a source -/

/-- A byte place between two characters, or at one of the ends. -/
def Text.Boundary (source : Text) (place : Nat) : Prop :=
  ∃ before after, source = before ++ after ∧ Text.byteSize before = place

/-- A piece that is not empty, lies in the source and does not cut a character. -/
structure Text.IsPiece (source : Text) (start stop : Nat) : Prop where
  lt : start < stop
  le : stop ≤ Text.byteSize source
  start : source.Boundary start
  stop : source.Boundary stop

section
variable {source : Text} {t : Token}

theorem Token.StandsIn.boundary_offset (h : t.StandsIn source) : source.Boundary t.offset := by
  obtain ⟨before, after, hsource, hsize⟩ := h
  exact ⟨before, t.text ++ after, by rw [hsource, List.append_assoc], hsize⟩

theorem Token.StandsIn.boundary_stop (h : t.StandsIn source) : source.Boundary t.stop := by
  obtain ⟨before, after, hsource, hsize⟩ := h
  exact ⟨before ++ t.text, after, hsource, by rw [Text.byteSize_append, hsize, Token.stop]⟩

/-- From a token to a later one is a piece of the source. -/
theorem Scans.isPiece {all : List Token} (h : Scans 0 source all) {opening close : Token} {ts : List Token}
    (hsuffix : opening :: ts <:+ all) (hclose : close ∈ ts) : source.IsPiece opening.offset close.stop := by
  have hstands := h.stands [] rfl rfl
  obtain ⟨-, hopening⟩ := hstands opening (hsuffix.subset List.mem_cons_self)
  obtain ⟨hne, hclosing⟩ := hstands close (hsuffix.subset (List.mem_cons_of_mem _ hclose))
  have hordered := h.wellBracketed.ordered.sublist hsuffix.sublist
  have hbefore : opening.stop ≤ close.offset := (List.pairwise_cons.1 hordered).1 close hclose
  have hstart : opening.offset ≤ opening.stop := Nat.le_add_right _ _
  have hend := Token.offset_lt_stop hne
  exact ⟨by omega, hclosing.stop_le, hopening.boundary_offset, hclosing.boundary_stop⟩

end

namespace Reader

/-! ## Calls -/

/-- The directives that keep their piece of source; both tags with a condition are read alike. -/
inductive Form
  | comment
  | var
  | unsupported
  | condition
  | loop

def Form.delim : Form → Delim
  | comment => .comment
  | var => .var
  | unsupported => .tag
  | condition => .tag
  | loop => .tag

/-- What stands after the opener of a directive, or after its first words, is read up to the closer. -/
inductive Closes (env : Env) (ts : List Token) (close : Token) (rest : List Token) : Form → Prop
  | comment (hclose : Gives (closer env .comment (skipText ts)) close rest) : Closes env ts close rest .comment
  | var {p : Path × Bool} {value : Option Literal} {fs : List Filter} {mid mid' mid'' : List Token}
    (hpath : Gives (path env .variableName ts) p mid) (hdefault : Gives (defaultValue env mid) value mid')
    (hfilters : Gives (filters env mid') fs mid'') (hclose : Gives (closer env .var mid'') close rest) :
    Closes env ts close rest .var
  | unsupported {name : Token} {tag : Text × Bool} {mid : List Token}
    (hname : Gives (expect env .name .tagName ts) name mid) (htag : Dialect.tag? name.text = some tag)
    (hclose : Gives (closer env .tag (skipArguments mid)) close rest) : Closes env ts close rest .unsupported
  | condition {c : Expr} {mid : List Token} (hcondition : Gives (condition env ts) c mid)
    (hclose : Gives (closer env .tag mid) close rest) : Closes env ts close rest .condition
  | loop {name word : Token} {source : LoopSource} {mid mid' mid'' : List Token}
    (hname : Gives (expect env .name .loopVariable ts) name mid)
    (hword : Gives (expect env (.keyword .kwIn) .kwIn mid) word mid')
    (hsource : Gives (loopSource env mid') source mid'') (hclose : Gives (closer env .tag mid'') close rest) :
    Closes env ts close rest .loop

/-- A reader with what it is given. -/
inductive Call
  | nodes (env : Env) (ts : List Token)
  | node (env : Env) (ts : List Token)
  | alternative (env : Env) (ts : List Token)
  /-- The reader of a directive that opens at byte `offset`, of which `ts` is still to be read. -/
  | directive (form : Form) (env : Env) (offset : Nat) (ts : List Token)

/-- A reader calls another, whether or not either of them succeeds. -/
inductive Call.Makes : Call → Call → Prop
  | first {env : Env} {ts : List Token} : Makes (.nodes env ts) (.node env ts)
  | next {env : Env} {ts rest : List Token} {n : Node} (hfirst : Finds env ts n rest) :
    Makes (.nodes env ts) (.nodes env rest)
  | comment {env : Env} {text : Text} {o : Nat} {ts : List Token} :
    Makes (.node env (⟨.opener .comment, text, o⟩ :: ts)) (.directive .comment env o ts)
  | var {env : Env} {text : Text} {o : Nat} {ts : List Token} :
    Makes (.node env (⟨.opener .var, text, o⟩ :: ts)) (.directive .var env o ts)
  | ifTag {env : Env} {text text' : Text} {o o' : Nat} {ts : List Token} :
    Makes (.node env (⟨.opener .tag, text, o⟩ :: ⟨.keyword .kwIf, text', o'⟩ :: ts)) (.directive .condition env o ts)
  | forTag {env : Env} {text text' : Text} {o o' : Nat} {ts : List Token} :
    Makes (.node env (⟨.opener .tag, text, o⟩ :: ⟨.keyword .kwFor, text', o'⟩ :: ts)) (.directive .loop env o ts)
  | unsupported {env : Env} {text : Text} {o : Nat} {ts : List Token} (hname : peek ts = some .name) :
    Makes (.node env (⟨.opener .tag, text, o⟩ :: ts)) (.directive .unsupported env o ts)
  | elseifTag {env : Env} {text text' : Text} {o o' : Nat} {ts : List Token} :
    Makes (.alternative env (⟨.opener .tag, text, o⟩ :: ⟨.keyword .kwElseif, text', o'⟩ :: ts))
      (.directive .condition env o ts)
  | elseIfTag {env : Env} {text text' text'' : Text} {o o' o'' : Nat} {ts : List Token} :
    Makes (.alternative env
      (⟨.opener .tag, text, o⟩ :: ⟨.keyword .kwElse, text', o'⟩ :: ⟨.keyword .kwIf, text'', o''⟩ :: ts))
      (.directive .condition env o ts)
  | elseBody {env : Env} {text text' : Text} {o o' : Nat} {ts rest : List Token} {close : Token}
    (hclose : Gives (closer env .tag ts) close rest) :
    Makes (.alternative env (⟨.opener .tag, text, o⟩ :: ⟨.keyword .kwElse, text', o'⟩ :: ts)) (.nodes env rest)
  | body {env : Env} {o : Nat} {ts rest : List Token} {close : Token}
    (hclose : Closes env ts close rest .condition) : Makes (.directive .condition env o ts) (.nodes env rest)
  | more {env : Env} {o : Nat} {ts mid rest : List Token} {close : Token} {body : List Node}
    (hclose : Closes env ts close mid .condition) (hbody : Gives (Reader.nodes env mid) body rest) :
    Makes (.directive .condition env o ts) (.alternative env rest)
  | loopBody {env : Env} {o : Nat} {ts mid rest : List Token} {name close : Token}
    (hname : Gives (expect env .name .loopVariable ts) name mid) (hclose : Closes env ts close rest .loop) :
    Makes (.directive .loop env o ts) (.nodes (env.enterLoop name.text) rest)

/-- A call cuts out the bytes from `start` up to `stop`: from the opener of its directive to the closer it
has read. -/
def Call.Cuts (call : Call) (start stop : Nat) : Prop :=
  match call with
  | .directive form env offset ts => ∃ close rest, Closes env ts close rest form ∧ start = offset ∧ stop = close.stop
  | _ => False

/-! ## Every call is made at a sound place -/

/-- The reader of a directive stands inside it, and its opener lies behind. -/
structure Opened (all : List Token) (d : Delim) (offset : Nat) (ts : List Token) : Prop where
  place : At all (some d) ts
  opener : ∃ opening used, opening.offset = offset ∧ opening :: (used ++ ts) <:+ all

/-- Readers of nodes stand between directives, readers of a directive inside it. -/
def Call.Sound (all : List Token) : Call → Prop
  | .nodes _ ts => At all none ts
  | .node _ ts => At all none ts
  | .alternative _ ts => At all none ts
  | .directive form _ offset ts => Opened all form.delim offset ts

section
variable {env : Env} {all ts rest : List Token} {close : Token} {d : Delim} {form : Form}

theorem Leads.place {α : Type} {n : Nat} {source : Text} {place : Option Delim} {o : Outcome α n} {value : α}
    (h : Leads source all place o) (hgives : Gives o value rest) : At all place rest := by
  obtain ⟨below, rfl⟩ := hgives
  exact h

theorem at_closer (h : At all (some d) ts) (hclose : Gives (closer env d ts) close rest) :
    close :: rest <:+ all ∧ At all none rest := by
  obtain ⟨rfl, hkind⟩ := gives_closer.1 hclose
  exact ⟨h.suffix, h.closed hkind⟩

/-- Reading a directive ends at a closer in it. -/
theorem Closes.suffix (h : Closes env ts close rest form) (hts : At all (some form.delim) ts) :
    close :: rest <:+ all ∧ At all none rest := by
  cases h with
  | comment hclose => exact at_closer (at_skipText hts).1 hclose
  | var hpath hdefault hfilters hclose =>
    have hmid := (leads_path (by decide) rfl hts).place hpath
    have hmid' := (leads_defaultValue hmid).place hdefault
    exact at_closer ((leads_filters hmid').place hfilters) hclose
  | unsupported hname _ hclose =>
    have hmid := (leads_expect rfl rfl hts).place hname
    exact at_closer (at_skipArguments hmid) hclose
  | condition hcondition hclose =>
    have hmid := ((leads_conditions (by decide)).1 ts hts).place hcondition
    exact at_closer hmid hclose
  | loop hname hword hsource hclose =>
    have hmid := (leads_expect rfl rfl hts).place hname
    have hmid' := (leads_expect rfl rfl hmid).place hword
    exact at_closer ((leads_loopSource hmid').place hsource) hclose

theorem Opened.of_at {opening : Token} (used : List Token) (h : At all none (opening :: (used ++ ts)))
    (hts : At all (some d) ts) : Opened all d opening.offset ts :=
  ⟨hts, opening, used, rfl, h.suffix⟩

/-- **A call made from a sound place is sound.** -/
theorem Call.Sound.step {call call' : Call} (h : call.Sound all) (hmakes : call.Makes call') : call'.Sound all := by
  cases hmakes with
  | first => exact h
  | @next env ts rest n hfirst =>
    obtain ⟨below, hnode⟩ := hfirst
    have hleads := (lead_blocks all).2.1 env ts h
    rw [hnode] at hleads
    exact hleads
  | comment => exact .of_at [] h (h.opened rfl)
  | var => exact .of_at [] h (h.opened rfl)
  | ifTag => exact .of_at [_] h ((h.opened rfl).next rfl)
  | forTag => exact .of_at [_] h ((h.opened rfl).next rfl)
  | unsupported => exact .of_at [] h (h.opened rfl)
  | elseifTag => exact .of_at [_] h ((h.opened rfl).next rfl)
  | elseIfTag => exact .of_at [_, _] h (((h.opened rfl).next rfl).next rfl)
  | elseBody hclose => exact (at_closer ((h.opened rfl).next rfl) hclose).2
  | body hclose => exact (hclose.suffix h.place).2
  -- what follows a body is read where reading the body has ended
  | more hclose hbody => exact ((lead_blocks all).1 _ _ (hclose.suffix h.place).2).place hbody
  | loopBody _ hclose => exact (hclose.suffix h.place).2

theorem Call.Sound.run {call call' : Call} (h : call.Sound all) (hrun : Relation.ReflTransGen Call.Makes call call') :
    call'.Sound all := by
  induction hrun with
  | refl => exact h
  | tail _ hmakes ih => exact ih.step hmakes

/-- A sound call cuts out a piece of the source. -/
theorem Call.Sound.isPiece {source : Text} {call : Call} {start stop : Nat} (hscans : Scans 0 source all)
    (h : call.Sound all) (hcuts : call.Cuts start stop) : source.IsPiece start stop := by
  cases call with
  | nodes | node | alternative => exact hcuts.elim
  | directive form env offset ts =>
    obtain ⟨close, rest, hclose, rfl, rfl⟩ := hcuts
    obtain ⟨hplace, opening, used, rfl, hsuffix⟩ := h
    -- the closer is a token of what the call had still to read
    obtain ⟨hbehind, -⟩ := hclose.suffix ⟨hplace.layout, List.suffix_rfl⟩
    have hmem : close ∈ used ++ ts := List.mem_append_right used (hbehind.subset List.mem_cons_self)
    exact hscans.isPiece hsuffix hmem

end

end Reader

/-! ## What a template keeps was cut out -/

mutual

def Node.kept : Node → List Text
  | .text _ => []
  | .comment raw => [raw]
  | .var v => [v.span.raw]
  | .ifBlock _ tag body more => tag.raw :: (Template.kept body ++ more.kept)
  | .forBlock _ _ tag body => tag.raw :: Template.kept body
  | .unsupported u => [u.span.raw]

def Alternative.kept : Alternative → List Text
  | .endif => []
  | .otherwise body => Template.kept body
  | .elseif _ tag body more => tag.raw :: (Template.kept body ++ more.kept)

/-- The pieces of source that the directives of a template keep. -/
def Template.kept : Template → List Text
  | [] => []
  | n :: t => n.kept ++ Template.kept t

end

namespace Reader

/-- A call, or one that follows from it, cuts a text out of the source. -/
def Call.Yields (source : Text) (call : Call) (raw : Text) : Prop :=
  ∃ call' start stop, Relation.ReflTransGen Call.Makes call call' ∧ call'.Cuts start stop ∧
    raw = Text.slice source start stop

section
variable {source raw : Text} {env : Env} {offset : Nat} {ts rest : List Token} {close : Token} {form : Form}

theorem Call.Yields.of_makes {call call' : Call} (h : call'.Yields source raw) (hmakes : call.Makes call') :
    call.Yields source raw := by
  obtain ⟨inner, start, stop, hrun, hcuts, hraw⟩ := h
  exact ⟨inner, start, stop, hrun.head hmakes, hcuts, hraw⟩

theorem Closes.yields (h : Closes env ts close rest form) :
    (Call.directive form env offset ts).Yields env.source (env.span offset close).raw :=
  ⟨_, offset, close.stop, .refl, ⟨close, rest, h, rfl, rfl⟩, rfl⟩

theorem closes_comment {span : Span} (h : Gives (comment env offset ts) span rest) :
    ∃ close, Closes env ts close rest .comment ∧ span = env.span offset close := by
  obtain ⟨close, _, hclose, _, h⟩ := h.of_bind
  simp only [gives_pure, Reading.map_parts, Reading.widen_parts] at h
  obtain ⟨rfl, rfl⟩ := h
  exact ⟨close, .comment hclose, rfl⟩

theorem closes_var {v : Variable} (h : Gives (var env offset ts) v rest) :
    ∃ close, Closes env ts close rest .var ∧ v.span = env.span offset close := by
  obtain ⟨p, _, hpath, _, h⟩ := h.of_bind
  obtain ⟨value, _, hdefault, _, h⟩ := h.of_bind
  obtain ⟨fs, _, hfilters, _, h⟩ := h.of_bind
  obtain ⟨close, _, hclose, _, h⟩ := h.of_bind
  simp only [gives_pure, Reading.map_parts, Reading.andMaybe_parts, Reading.andThen_parts] at h
  obtain ⟨rfl, rfl⟩ := h
  exact ⟨close, .var hpath hdefault hfilters hclose, rfl⟩

theorem closes_unsupported {u : Unsupported} (h : Gives (unsupported env offset ts) u rest) :
    ∃ close, Closes env ts close rest .unsupported ∧ u.span = env.span offset close := by
  obtain ⟨name, mid, hname, _, h⟩ := h.of_bind
  dsimp only at h
  split at h
  · exact (not_gives_error h).elim
  · rename_i tag closing htag
    obtain ⟨_, _, hcloser, _, h⟩ := h.of_bind
    obtain ⟨close, _, hclose, _, hcloser⟩ := hcloser.of_bind
    simp only [gives_pure, Reading.map_parts, Reading.andThen_parts, Reading.widen_parts] at h hcloser
    obtain ⟨rfl, rfl⟩ := h
    obtain ⟨rfl, rfl⟩ := hcloser
    exact ⟨close, .unsupported hname htag hclose, rfl⟩

/-- Both tags with a condition: the tag, the body, and what follows it. -/
theorem ReadsClause.yields {c : Expr} {tag : Span} {body : List Node} {more : Alternative}
    (h : ReadsClause env offset ts c tag body more rest)
    (hbody : ∀ (c : Reading Expr ts.length) (close : Reading Token c.rest.length) t rest,
      Gives (nodes env close.rest) t rest → ∀ raw ∈ Template.kept t, (Call.nodes env close.rest).Yields env.source raw)
    (hmore : ∀ (c : Reading Expr ts.length) (close : Reading Token c.rest.length)
      (body : Reading (List Node) (close.rest.length + 1)) a rest, Gives (alternative env body.rest) a rest →
      ∀ raw ∈ a.kept, (Call.alternative env body.rest).Yields env.source raw) :
    ∀ raw ∈ tag.raw :: (Template.kept body ++ more.kept),
      (Call.directive .condition env offset ts).Yields env.source raw := by
  obtain ⟨close, mid, mid', hc, hkind, rfl, hnodes, halt⟩ := h
  have hclose : Closes env ts close mid .condition := .condition hc (gives_closer.2 ⟨rfl, hkind⟩)
  obtain ⟨below, -⟩ := hc
  refine List.forall_mem_cons.2 ⟨hclose.yields, List.forall_mem_append.2 ⟨?_, ?_⟩⟩
  · intro raw hraw
    exact (hbody ⟨c, close :: mid, below⟩ ⟨close, mid, by simp⟩ body mid' hnodes raw hraw).of_makes (.body hclose)
  · intro raw hraw
    exact (hmore ⟨c, close :: mid, below⟩ ⟨close, mid, by simp⟩ ⟨body, mid', hnodes.below⟩ more rest halt raw
      hraw).of_makes (.more hclose hnodes)

theorem yields_forBlock {n : Node} (h : Gives (forBlock env offset ts) n rest)
    (hbody : ∀ (name : Reading Token ts.length) (kwIn : Reading Token name.rest.length)
      (source : Reading LoopSource kwIn.rest.length) (close : Reading Token source.rest.length) t rest,
      Gives (nodes (env.enterLoop name.value.text) close.rest) t rest → ∀ raw ∈ Template.kept t,
      (Call.nodes (env.enterLoop name.value.text) close.rest).Yields env.source raw) :
    ∀ raw ∈ n.kept, (Call.directive .loop env offset ts).Yields env.source raw := by
  obtain ⟨name, second, mid, source, close, mid', body, mid'', rfl, hname, hsecond, hsource, hkind, hnodes, -, rfl⟩ :=
    gives_forBlock.1 h
  have hfirst : Gives (expect env .name .loopVariable (name :: second :: mid)) name (second :: mid) :=
    gives_expect.2 ⟨rfl, hname⟩
  have hclose : Closes env (name :: second :: mid) close mid' .loop :=
    .loop hfirst (gives_expect.2 ⟨rfl, hsecond⟩) hsource (gives_closer.2 ⟨rfl, hkind⟩)
  obtain ⟨below, -⟩ := hsource
  refine List.forall_mem_cons.2 ⟨hclose.yields, fun raw hraw => ?_⟩
  exact (hbody ⟨name, second :: mid, by simp⟩ ⟨second, mid, by simp⟩ ⟨source, close :: mid', below⟩
    ⟨close, mid', by simp⟩ body mid'' hnodes raw hraw).of_makes (.loopBody hfirst hclose)

end

theorem yield_blocks :
    (∀ env ts t rest, Gives (nodes env ts) t rest →
      ∀ raw ∈ Template.kept t, (Call.nodes env ts).Yields env.source raw) ∧
    (∀ env ts n rest, Finds env ts n rest → ∀ raw ∈ n.kept, (Call.node env ts).Yields env.source raw) ∧
    (∀ env offset ts n rest, Gives (forBlock env offset ts) n rest →
      ∀ raw ∈ n.kept, (Call.directive .loop env offset ts).Yields env.source raw) ∧
    (∀ env offset ts n rest, Gives (ifBlock env offset ts) n rest →
      ∀ raw ∈ n.kept, (Call.directive .condition env offset ts).Yields env.source raw) ∧
    (∀ env ts a rest, Gives (alternative env ts) a rest →
      ∀ raw ∈ a.kept, (Call.alternative env ts).Yields env.source raw) ∧
    ∀ env offset ts a rest, Gives (elseif env offset ts) a rest →
      ∀ raw ∈ a.kept, (Call.directive .condition env offset ts).Yields env.source raw := by
  apply nodes.mutual_induct
  -- lists of nodes, then the blocks behind their first tags
  case case1 =>
    intro env ts hfirst hmore t rest h
    rcases gives_nodes.1 h with ⟨-, rfl, -⟩ | ⟨n, mid, more, hfinds, hnodes, rfl⟩
    · intro raw hraw
      cases hraw
    · refine List.forall_mem_append.2 ⟨fun raw hraw => ?_, fun raw hraw => ?_⟩
      · exact (hfirst n mid hfinds raw hraw).of_makes .first
      · exact (hmore ⟨n, mid, hfinds.1⟩ more rest hnodes raw hraw).of_makes (.next hfinds)
  case case12 => exact fun env offset ts hbody n rest h => yields_forBlock h hbody
  case case13 =>
    intro env offset ts hbody hmore n rest h
    obtain ⟨c, tag, body, more, hclause, rfl⟩ := gives_ifBlock.1 h
    exact hclause.yields hbody hmore
  case case20 =>
    intro env offset ts hbody hmore a rest h
    obtain ⟨c, tag, body, more, hclause, rfl⟩ := gives_elseif.1 h
    exact hclause.yields hbody hmore
  -- single nodes: nothing, a text, a comment, a variable, the two blocks, an unsupported tag
  case case2 =>
    intro env n rest h
    obtain ⟨_, h⟩ := h
    rw [node] at h
    cases h
  case case3 =>
    intro env raw o ts n rest h
    obtain ⟨_, h⟩ := h
    rw [node] at h
    cases h
    intro raw hraw
    cases hraw
  case case4 =>
    intro env text o ts n rest h
    obtain ⟨span, _, _, hcomment, rfl, rfl⟩ := finds_of_bind (by rw [node]) h
    obtain ⟨close, hclose, rfl⟩ := closes_comment hcomment
    exact List.forall_mem_singleton.2 (hclose.yields.of_makes .comment)
  case case5 =>
    intro env text o ts n rest h
    obtain ⟨v, _, _, hvar, rfl, rfl⟩ := finds_of_bind (by rw [node]) h
    obtain ⟨close, hclose, hspan⟩ := closes_var hvar
    refine List.forall_mem_singleton.2 ?_
    show Call.Yields env.source _ v.span.raw
    rw [hspan]
    exact hclose.yields.of_makes .var
  case case6 =>
    intro env text o text' o' ts hblock n rest h
    obtain ⟨_, _, _, hif, rfl, rfl⟩ := finds_of_bind (by rw [node]) h
    exact fun raw hraw => (hblock _ _ hif raw hraw).of_makes .ifTag
  case case7 =>
    intro env text o text' o' ts hblock n rest h
    obtain ⟨_, _, _, hfor, rfl, rfl⟩ := finds_of_bind (by rw [node]) h
    exact fun raw hraw => (hblock _ _ hfor raw hraw).of_makes .forTag
  case case8 =>
    intro env text o ts hif hfor hname n rest h
    obtain ⟨u, _, _, hu, rfl, rfl⟩ := finds_of_bind (node_of_name hname) h
    obtain ⟨close, hclose, hspan⟩ := closes_unsupported hu
    refine List.forall_mem_singleton.2 ?_
    show Call.Yields env.source _ u.span.raw
    rw [hspan]
    exact hclose.yields.of_makes (.unsupported hname)
  -- no node starts here
  case case9 =>
    intro env text o ts hif hfor hname hdivides n rest h
    obtain ⟨_, h⟩ := h
    rw [node.eq_7 env text o ts hif hfor] at h
    simp [hdivides] at h
  case case10 =>
    intro env text o ts hif hfor hname hdivides n rest h
    obtain ⟨_, h⟩ := h
    rw [node.eq_7 env text o ts hif hfor] at h
    simp [hdivides] at h
  case case11 =>
    intro env ts hnil htext hcomment hvar hif hfor htag n rest h
    obtain ⟨_, h⟩ := h
    rw [node.eq_8 env ts hnil htext hcomment hvar hif hfor htag] at h
    cases h
  -- what follows a branch
  case case14 =>
    intro env text o text' o' ts hclause a rest h
    rw [alternative] at h
    obtain ⟨_, _, helseif, _, h⟩ := h.of_bind
    simp only [gives_pure, Reading.after_parts] at h
    obtain ⟨rfl, rfl⟩ := h
    exact fun raw hraw => (hclause _ _ helseif raw hraw).of_makes .elseifTag
  case case15 =>
    intro env text o text' o' text'' o'' ts hclause a rest h
    rw [alternative] at h
    obtain ⟨_, _, helseif, _, h⟩ := h.of_bind
    simp only [gives_pure, Reading.after_parts] at h
    obtain ⟨rfl, rfl⟩ := h
    exact fun raw hraw => (hclause _ _ helseif raw hraw).of_makes .elseIfTag
  case case16 =>
    intro env text o text' o' ts hif hbody a rest h
    rw [alternative.eq_3 env _ _ _ _ ts hif] at h
    obtain ⟨close, mid, hclose, below, h⟩ := h.of_bind
    obtain ⟨body, mid', hnodes, _, h⟩ := h.of_bind
    obtain ⟨_, _, -, _, h⟩ := h.of_bind
    simp only [gives_pure, Reading.map_parts] at h
    obtain ⟨rfl, -⟩ := h
    exact fun raw hraw => (hbody ⟨close, mid, below⟩ body mid' hnodes raw hraw).of_makes (.elseBody hclose)
  case case17 =>
    intro env text o text' o' ts a rest h
    rw [alternative] at h
    obtain ⟨close, _, hclose, _, h⟩ := h.of_bind
    simp only [gives_pure, Reading.map_parts] at h
    obtain ⟨rfl, -⟩ := h
    intro raw hraw
    cases hraw
  case case18 =>
    intro env a rest h
    rw [alternative] at h
    exact (not_gives_error h).elim
  case case19 =>
    intro env ts helseif helseIf helse hendif hnil a rest h
    rw [alternative.eq_6 env ts helseif helseIf helse hendif hnil] at h
    exact (not_gives_error h).elim

end Reader

open Reader in
/-- **Errors are found at a token, or at the end of the input for an open block only**, and whatever is cut
out of a scanned source, also in a run that fails, is a piece of it; what a template keeps is such a piece. -/
theorem Template.failures_located {source : Text} {ts : List Token} (hscan : Token.scan source = .ok ts) (ns : Text) :
    (∀ e, Template.ofTokens source ts ns = .error e →
      (e.found.message = "end of input" ↔ e.offset = Text.byteSize source ∧
        (e.expected.message = "`\x7b% endif %\x7d`" ∨ e.expected.message = "`\x7b% endfor %\x7d`")) ∧
      (e.found.message ≠ "end of input" → ∃ t ∈ ts, t.offset = e.offset) ∧
      e.expected.message ≠ "text or a directive" ∧ e.expected.message ≠ "`#\x7d`") ∧
    (∀ call start stop, Relation.ReflTransGen Call.Makes (.nodes ⟨source, ns, []⟩ ts) call →
      call.Cuts start stop → source.IsPiece start stop) ∧
    ∀ t, Template.ofTokens source ts ns = .ok t →
      ∀ raw ∈ Template.kept t, (Call.nodes ⟨source, ns, []⟩ ts).Yields source raw := by
  have hscans := Token.scan_eq_ok_iff.1 hscan
  refine ⟨fun e h => ?_, fun call start stop hrun hcuts => ?_, fun t h => ?_⟩
  · have hlocated := located_ofTokens hscans.layout h
    exact ⟨hlocated.endOfInput_iff hscans, hlocated.exists_token, Expectation.message_ne_of_arises hlocated.arises⟩
  · have hstart : (Call.nodes ⟨source, ns, []⟩ ts).Sound ts := ⟨hscans.layout, List.suffix_rfl⟩
    exact (hstart.run hrun).isPiece hscans hcuts
  · exact yield_blocks.1 ⟨source, ns, []⟩ ts t [] (Template.ofTokens_eq_ok_iff_gives.1 h)

open Reader in
/-- A comment is cut out before the end of the input shows that the block behind it is open. -/
theorem Template.failures_located_open_block : ∃ source ts e,
    (source = Delim.comment.enclose ['é'] ++ Delim.tag.enclose "if b".toList ∧ Token.scan source = .ok ts ∧
      Template.ofTokens source ts "params".toList = .error e ∧ e.offset = 14) ∧
    (e.found.message = "end of input" ↔ e.offset = Text.byteSize source ∧
      (e.expected.message = "`\x7b% endif %\x7d`" ∨ e.expected.message = "`\x7b% endfor %\x7d`")) ∧
    source.IsPiece 0 6 := by
  obtain ⟨ts, hscan, hfacts⟩ : ∃ ts, Token.scan (Delim.comment.enclose ['é'] ++ Delim.tag.enclose "if b".toList) = .ok ts ∧
      (ts.take 3, (Template.ofTokens (Delim.comment.enclose ['é'] ++ Delim.tag.enclose "if b".toList) ts
        "params".toList).map fun _ => ()) =
      ([⟨.opener .comment, Delim.comment.opener, 0⟩, ⟨.text, ['é'], 2⟩, ⟨.closer .comment, Delim.comment.closer, 4⟩],
        .error ⟨14, .endif, .endOfInput⟩) := exists_ok_of_toOption (by decide +kernel)
  obtain ⟨hfront, hopen⟩ := Prod.mk.inj hfacts
  obtain ⟨herror, hcuts, -⟩ := Template.failures_located hscan "params".toList
  refine ⟨_, ts, _, ⟨rfl, hscan, error_of_map_eq hopen, rfl⟩, (herror _ (error_of_map_eq hopen)).1, ?_⟩
  have hts : ts = _ ++ ts.drop 3 := hfront ▸ (List.take_append_drop 3 ts).symm
  rw [hts] at hcuts
  refine hcuts _ 0 6 (.tail (.tail .refl .first) .comment) ?_
  exact ⟨_, _, .comment (gives_closer.2 ⟨rfl, rfl⟩), rfl, rfl⟩

end MailDialect
