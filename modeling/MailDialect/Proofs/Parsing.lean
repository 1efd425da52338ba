import MailDialect.Proofs.Condition
import MailDialect.Template.Reader.Block

/-!
# Reading accepts exactly the grammar

Main statement: tokens that were scanned from a source are read as a template exactly if the grammar
derives one from them, and then the template read is the only one, scopes apart
(`Template.ofTokens_eq_ok_iff`, `Template.reads_exactly_grammar`).
-/

namespace MailDialect

/-! ## Names of tags -/

theorem Dialect.tag?_eq_some_iff {name tag : Text} {closing : Bool} :
    Dialect.tag? name = some (tag, closing) ↔
      (closing = false ∧ tag = name ∧ name ∈ unsupportedTags) ∨
      (closing = true ∧ name = 'e' :: 'n' :: 'd' :: tag ∧ tag ∈ unsupportedTags) := by
  unfold tag?
  simp only [List.contains_iff_mem]
  split
  · rename_i hmem
    constructor
    · rintro ⟨⟩; exact .inl ⟨rfl, rfl, hmem⟩
    · rintro (⟨rfl, rfl, -⟩ | ⟨-, rfl, -⟩)
      · rfl
      · exact (end_not_mem_unsupportedTags _ hmem).elim
  · rename_i hmem
    split
    · rename_i opened
      split
      · rename_i hopened
        constructor
        · rintro ⟨⟩; exact .inr ⟨rfl, rfl, hopened⟩
        · rintro (⟨-, -, h⟩ | ⟨rfl, h, -⟩)
          · exact (hmem h).elim
          · cases h; rfl
      · rename_i hopened
        constructor
        · rintro ⟨⟩
        · rintro (⟨-, -, h⟩ | ⟨-, h, htag⟩)
          · exact (hmem h).elim
          · cases h; exact (hopened htag).elim
    · rename_i hne
      constructor
      · rintro ⟨⟩
      · rintro (⟨-, -, h⟩ | ⟨-, rfl, -⟩)
        · exact (hmem h).elim
        · exact (hne _ rfl).elim

namespace Reader

open Grammar

variable {env : Env} {offset : Nat} {ts rest : List Token}

theorem Gives.below {α : Type} {n : Nat} {o : Outcome α n} {value : α} (h : Gives o value rest) :
    rest.length < n := h.1

theorem gives_closer {d : Delim} {t : Token} :
    Gives (closer env d ts) t rest ↔ ts = t :: rest ∧ t.kind = .closer d := gives_expect

/-! ## Single directives -/

theorem gives_comment {span : Span} :
    Gives (comment env offset ts) span rest ↔ ∃ body close, ts = body ++ close :: rest ∧
      close.kind = .closer .comment ∧ (body = [] ∨ ∃ t, body = [t] ∧ t.kind = .text) ∧
      span = env.span offset close := by
  constructor
  · intro h
    obtain ⟨close, _, hcloser, _, h⟩ := h.of_bind
    simp only [gives_pure, Reading.map_parts, Reading.widen_parts] at h
    obtain ⟨rfl, rfl⟩ := h
    obtain ⟨hskip, hclose⟩ := gives_closer.1 hcloser
    unfold skipText at hskip
    split at hskip
    · exact ⟨[_], close, by rw [hskip]; rfl, hclose, .inr ⟨_, rfl, rfl⟩, rfl⟩
    · exact ⟨[], close, hskip, hclose, .inl rfl, rfl⟩
  · rintro ⟨body, close, rfl, hclose, hbody, rfl⟩
    have hskip : skipText (body ++ close :: rest) = close :: rest := by
      rcases hbody with rfl | ⟨⟨_, text, o⟩, rfl, rfl⟩
      · obtain ⟨_, text, o⟩ := close
        subst hclose; rfl
      · rfl
    exact Gives.bind (gives_closer.2 ⟨hskip, hclose⟩) fun _ => by simp

theorem isDefault_of_defaultValue {value : Option Literal} (h : Gives (defaultValue env ts) value rest) :
    ∃ used, ts = used ++ rest ∧ IsDefault used value := by
  unfold defaultValue at h
  split at h
  · simp only [gives_ok, Reading.relax_parts, Reading.after_parts, Reading.one_parts] at h
    obtain ⟨rfl, rfl⟩ := h
    exact ⟨[_, _], rfl, .some rfl⟩
  · exact (not_gives_error h).elim
  · simp only [gives_ok, Reading.nothing_parts] at h
    obtain ⟨rfl, rfl⟩ := h
    exact ⟨[], rfl, .none⟩

theorem defaultValue_of_isDefault {used : List Token} {value : Option Literal} (h : IsDefault used value)
    (hcolon : peek rest ≠ some (.punct .colon)) : Gives (defaultValue env (used ++ rest)) value rest := by
  cases h with
  | none =>
    rw [List.nil_append]
    unfold defaultValue
    split
    · exact (hcolon rfl).elim
    · exact (hcolon rfl).elim
    · simp
  | @some colon value text o hkind =>
    obtain ⟨_, text', o'⟩ := colon
    subst hkind
    exact gives_ok.2 ⟨rfl, rfl⟩

theorem isHead_of_var {v : Variable} (hts : Orderly ts) (h : Gives (var env offset ts) v rest) :
    ∃ inner close, ts = inner ++ close :: rest ∧ close.kind = .closer .var ∧
      IsHead .var inner (.var v.path v.default v.filters v.marked) ∧ v.span = env.span offset close := by
  obtain ⟨⟨p, marked⟩, mid, hpath, _, h⟩ := h.of_bind
  obtain ⟨value, mid', hvalue, _, h⟩ := h.of_bind
  obtain ⟨fs, mid'', hfilters, _, h⟩ := h.of_bind
  obtain ⟨close, _, hcloser, _, h⟩ := h.of_bind
  simp only [gives_pure, Reading.map_parts, Reading.andMaybe_parts, Reading.andThen_parts] at h
  obtain ⟨rfl, rfl⟩ := h
  obtain ⟨used, rfl, hp⟩ := isPath_of_path hts hpath
  obtain ⟨used', rfl, hd⟩ := isDefault_of_defaultValue hvalue
  obtain ⟨used'', rfl, hfs⟩ := isFilters_of_filters hts.right.right hfilters
  obtain ⟨rfl, hclose⟩ := gives_closer.1 hcloser
  exact ⟨used ++ used' ++ used'', close, by simp, hclose, .var hp hd hfs, rfl⟩

theorem var_of_isHead {inner : List Token} {p : Path} {value : Option Literal} {fs : List Filter} {marked : Bool}
    {close : Token} (h : IsHead .var inner (.var p value fs marked)) (hclose : close.kind = .closer .var)
    (horderly : Orderly (inner ++ close :: rest)) :
    Gives (var env offset (inner ++ close :: rest))
      ⟨p.rescope env.resolve, value, fs, marked, env.span offset close⟩ rest := by
  cases h with
  | @var used used' used'' _ _ _ _ hpath hdefault hfilters =>
    rw [List.append_assoc, List.append_assoc] at horderly ⊢
    have hstops : Stops (close :: rest) := .of_kind (by simp [hclose])
    have hends := ends_of_isFilters hfilters hstops
    have hp : Gives (path env .variableName (used ++ (used' ++ (used'' ++ close :: rest))))
        (p.rescope env.resolve, marked) (used' ++ (used'' ++ close :: rest)) := by
      cases hdefault with
      | none => exact path_of_ends hpath horderly hends
      | @some colon value text o hcolon =>
        refine path_of_isPath hpath horderly (by simp [peek_cons, hcolon]) ?_
        rintro ⟨_, t, _, heq, -, hword⟩
        cases heq
        rw [(orderly_cons.1 horderly.right).1 _ (by simp) ⟨_, hcolon⟩] at hword
        cases hword
    refine hp.bind fun _ => ?_
    refine (defaultValue_of_isDefault hdefault fun hcolon => (hends _ hcolon).2.1 rfl).bind fun _ => ?_
    refine (filters_of_isFilters hfilters horderly.right.right hstops).bind fun _ => ?_
    exact Gives.bind (gives_closer.2 ⟨rfl, hclose⟩) fun _ => by simp

theorem gives_closeAfterArguments {close : Token} :
    Gives (closeAfterArguments env ts) close rest ↔ ∃ args, ts = args ++ close :: rest ∧
      close.kind = .closer .tag ∧ ∀ t ∈ args, t.kind ≠ .closer .tag := by
  constructor
  · intro h
    obtain ⟨_, _, hcloser, _, h⟩ := h.of_bind
    simp only [gives_pure, Reading.widen_parts] at h
    obtain ⟨rfl, rfl⟩ := h
    obtain ⟨hskip, hclose⟩ := gives_closer.1 hcloser
    refine ⟨ts.takeWhile fun t => t.kind != .closer .tag, ?_, hclose, fun t ht => ?_⟩
    · rw [← hskip, skipArguments, List.takeWhile_append_dropWhile]
    · simpa using List.all_eq_true.1 List.all_takeWhile t ht
  · rintro ⟨args, rfl, hclose, hargs⟩
    have hskip : skipArguments (args ++ close :: rest) = close :: rest := by
      rw [skipArguments, List.dropWhile_append_of_pos (by simpa using hargs)]
      simp [hclose]
    exact Gives.bind (gives_closer.2 ⟨hskip, hclose⟩) fun _ => by simp

/-- The reader of unsupported tags is exact. -/
theorem gives_unsupported {u : Unsupported} :
    Gives (unsupported env offset ts) u rest ↔ ∃ inner close, ts = inner ++ close :: rest ∧
      close.kind = .closer .tag ∧ IsHead .tag inner (.unsupported u.name u.closing) ∧
      u.span = env.span offset close := by
  constructor
  · intro h
    obtain ⟨name, mid, hexpect, _, h⟩ := h.of_bind
    obtain ⟨rfl, hname⟩ := gives_expect.1 hexpect
    dsimp only at h
    split at h
    · exact (not_gives_error h).elim
    · rename_i tag closing htag
      obtain ⟨close, _, hcloser, _, h⟩ := h.of_bind
      simp only [gives_pure, Reading.map_parts, Reading.andThen_parts] at h
      obtain ⟨rfl, rfl⟩ := h
      obtain ⟨args, hsplit, hclose, hargs⟩ := gives_closeAfterArguments.1 hcloser
      refine ⟨name :: args, close, congrArg (name :: ·) hsplit, hclose, ?_, rfl⟩
      rcases Dialect.tag?_eq_some_iff.1 htag with ⟨rfl, rfl, hmem⟩ | ⟨rfl, htext, hmem⟩
      · exact .opening hname hmem hargs
      · exact .closing hname htext hmem hargs
  · obtain ⟨tag, closing, span⟩ := u
    rintro ⟨inner, close, rfl, hclose, hhead, rfl⟩
    obtain ⟨name, args, rfl, hname, htag, hargs⟩ : ∃ name args, inner = name :: args ∧ name.kind = .name ∧
        Dialect.tag? name.text = some (tag, closing) ∧ ∀ t ∈ args, t.kind ≠ .closer .tag := by
      cases hhead with
      | opening hname hmem hargs =>
        exact ⟨_, _, rfl, hname, Dialect.tag?_eq_some_iff.2 (.inl ⟨rfl, rfl, hmem⟩), hargs⟩
      | closing hname htext hmem hargs =>
        exact ⟨_, _, rfl, hname, Dialect.tag?_eq_some_iff.2 (.inr ⟨rfl, htext, hmem⟩), hargs⟩
    refine Gives.bind (gives_expect.2 ⟨rfl, hname⟩) fun _ => ?_
    simp only [htag]
    exact Gives.bind (gives_closeAfterArguments.2 ⟨args, rfl, hclose, hargs⟩) fun _ => by simp

theorem isLoopSource_of_loopSource {source : LoopSource} (hts : Orderly ts)
    (h : Gives (loopSource env ts) source rest) : ∃ used, ts = used ++ rest ∧ IsLoopSource used source := by
  unfold loopSource at h
  split at h
  · obtain ⟨opening, mid, hopening, _, h⟩ := h.of_bind
    obtain ⟨args, mid', hargs, _, h⟩ := h.of_bind
    obtain ⟨close, _, hparen, _, h⟩ := h.of_bind
    simp only [gives_pure, Reading.map_parts, Reading.after_parts, Reading.andThen_parts] at h
    obtain ⟨rfl, rfl⟩ := h
    obtain ⟨rfl, hopen⟩ := gives_expect.1 hopening
    obtain ⟨used, rfl, hlist, hfew⟩ := commaList_of_bounds (orderly_cons.1 (orderly_cons.1 hts).2).2 hargs
    obtain ⟨rfl, hclose⟩ := gives_expect.1 hparen
    rw [List.append_cons]
    exact ⟨_ :: opening :: (used ++ [close]), rfl, .range rfl hopen hlist hfew hclose⟩
  · obtain ⟨⟨p, marked⟩, mid, hpath, _, h⟩ := h.of_bind
    obtain ⟨fs, _, hfilters, _, h⟩ := h.of_bind
    simp only [gives_pure, Reading.map_parts, Reading.andMaybe_parts] at h
    obtain ⟨rfl, rfl⟩ := h
    obtain ⟨used, rfl, hp⟩ := isPath_of_path hts hpath
    obtain ⟨used', rfl, hfs⟩ := isFilters_of_filters hts.right hfilters
    exact ⟨used ++ used', by simp, .collection hp hfs⟩

theorem loopSource_of_isLoopSource {used : List Token} {source : LoopSource} (h : IsLoopSource used source)
    (horderly : Orderly (used ++ rest)) (hstops : Stops rest) :
    Gives (loopSource env (used ++ rest)) (source.rescope env.resolve) rest := by
  cases h with
  | @collection used used' p marked fs hpath hfilters =>
    rw [List.append_assoc] at horderly ⊢
    have hname : peek (used ++ (used' ++ rest)) = some .name := peek_path hpath
    have hp : Gives (path env .collection (used ++ (used' ++ rest))) _ _ :=
      path_of_ends hpath horderly (ends_of_isFilters hfilters hstops)
    have hfs : Gives (filters env (used' ++ rest)) fs rest := filters_of_isFilters hfilters horderly.right hstops
    generalize used ++ (used' ++ rest) = ts at hname hp
    unfold loopSource
    split
    · cases hname
    · exact hp.bind fun _ => hfs.bind fun _ => by simp [LoopSource.rescope]
  | @range word opening closing used bounds hword hopening hbounds hfew hclosing =>
    obtain ⟨_, text, o⟩ := word
    subst hword
    rw [List.cons_append, List.cons_append, List.append_assoc, List.singleton_append] at horderly ⊢
    refine Gives.bind (gives_expect.2 ⟨rfl, hopening⟩) fun _ => ?_
    refine (bounds_of_commaList hbounds hfew (orderly_cons.1 (orderly_cons.1 horderly).2).2 hclosing).bind fun _ => ?_
    exact Gives.bind (gives_expect.2 ⟨rfl, hclosing⟩) fun _ => by simp [LoopSource.rescope]

/-! ## Ends of blocks -/

/-- The tag `word` closes here. -/
theorem gives_endfor : Gives (endfor env ts) () rest ↔ ∃ opening word close, ts = opening :: word :: close :: rest ∧
    opening.kind = .opener .tag ∧ word.kind = .keyword .kwEndfor ∧ close.kind = .closer .tag := by
  constructor
  · intro h
    unfold endfor at h
    split at h
    · obtain ⟨close, _, hcloser, _, h⟩ := h.of_bind
      simp only [gives_pure, Reading.map_parts, Reading.after_parts, true_and] at h
      subst h
      obtain ⟨rfl, hclose⟩ := gives_closer.1 hcloser
      exact ⟨_, _, close, rfl, rfl, rfl, hclose⟩
    · exact (not_gives_error h).elim
  · rintro ⟨⟨_, text, o⟩, ⟨_, text', o'⟩, close, rfl, rfl, rfl, hclose⟩
    exact Gives.bind (gives_closer.2 ⟨rfl, hclose⟩) fun _ => by simp

theorem gives_endifAfterElse : Gives (endifAfterElse env ts) () rest ↔ ∃ opening word close,
    ts = opening :: word :: close :: rest ∧
    opening.kind = .opener .tag ∧ word.kind = .keyword .kwEndif ∧ close.kind = .closer .tag := by
  constructor
  · intro h
    unfold endifAfterElse at h
    split at h
    · obtain ⟨close, _, hcloser, _, h⟩ := h.of_bind
      simp only [gives_pure, Reading.map_parts, Reading.after_parts, true_and] at h
      subst h
      obtain ⟨rfl, hclose⟩ := gives_closer.1 hcloser
      exact ⟨_, _, close, rfl, rfl, rfl, hclose⟩
    all_goals exact (not_gives_error h).elim
  · rintro ⟨⟨_, text, o⟩, ⟨_, text', o'⟩, close, rfl, rfl, rfl, hclose⟩
    exact Gives.bind (gives_closer.2 ⟨rfl, hclose⟩) fun _ => by simp

/-! ## Blocks, one step at a time -/

/-- The node reader finds a node. -/
def Finds (env : Env) (ts : List Token) (n : Node) (rest : List Token) : Prop :=
  ∃ below, node env ts = .ok (some ⟨n, rest, below⟩)

theorem gives_nodes {ns : List Node} : Gives (nodes env ts) ns rest ↔
    (node env ts = .ok none ∧ ns = [] ∧ rest = ts) ∨
    ∃ n mid ns', Finds env ts n mid ∧ Gives (nodes env mid) ns' rest ∧ ns = n :: ns' := by
  rw [nodes]
  constructor
  · intro h
    cases hnode : node env ts with
    | error e => rw [hnode] at h; exact (not_gives_error h).elim
    | ok found =>
      rw [hnode] at h
      cases found with
      | none =>
        obtain ⟨rfl, rfl⟩ := gives_pure.1 h
        exact .inl ⟨rfl, rfl, rfl⟩
      | some first =>
        obtain ⟨ns', _, hmore, _, h⟩ := Gives.of_bind h
        simp only [gives_pure, Reading.map_parts, Reading.relax_parts, Reading.andMaybe_parts] at h
        obtain ⟨rfl, rfl⟩ := h
        exact .inr ⟨first.value, first.rest, ns', ⟨first.below, hnode⟩, hmore, rfl⟩
  · rintro (⟨hnode, rfl, rfl⟩ | ⟨n, mid, ns', ⟨below, hnode⟩, hmore, rfl⟩)
    · rw [hnode]; exact gives_pure.2 ⟨rfl, rfl⟩
    · rw [hnode]; exact Gives.bind hmore fun _ => by simp

/-- The readers find a condition and the closer of its tag, a body, and what follows the body. -/
def ReadsClause (env : Env) (offset : Nat) (ts : List Token) (c : Expr) (tag : Span) (body : List Node)
    (more : Alternative) (rest : List Token) : Prop :=
  ∃ close mid mid', Gives (condition env ts) c (close :: mid) ∧ close.kind = .closer .tag ∧
    tag = env.span offset close ∧ Gives (nodes env mid) body mid' ∧ Gives (alternative env mid') more rest

theorem gives_clause {β : Type} (f : Expr → Span → List Node → Alternative → β) {value : β} :
    Gives (do
      let c ← condition env ts
      let close ← closer env .tag c.rest
      let body ← nodes env close.rest
      let more ← alternative env body.rest
      return (c.andThen (close.andMaybe (body.andThen more))).map
        (f c.value (env.span offset close.value) body.value)) value rest ↔
    ∃ c tag body more, ReadsClause env offset ts c tag body more rest ∧ value = f c tag body more := by
  constructor
  · intro h
    obtain ⟨c, _, hc, _, h⟩ := h.of_bind
    obtain ⟨close, mid, hcloser, _, h⟩ := h.of_bind
    obtain ⟨body, mid', hbody, _, h⟩ := h.of_bind
    obtain ⟨more, _, hmore, _, h⟩ := h.of_bind
    simp only [gives_pure, Reading.map_parts, Reading.andThen_parts, Reading.andMaybe_parts] at h
    obtain ⟨rfl, rfl⟩ := h
    obtain ⟨rfl, hclose⟩ := gives_closer.1 hcloser
    exact ⟨c, _, body, more, ⟨close, mid, mid', hc, hclose, rfl, hbody, hmore⟩, rfl⟩
  · rintro ⟨c, tag, body, more, ⟨close, mid, mid', hc, hclose, rfl, hbody, hmore⟩, rfl⟩
    refine hc.bind fun _ => Gives.bind (gives_closer.2 ⟨rfl, hclose⟩) fun _ => ?_
    exact hbody.bind fun _ => hmore.bind fun _ => by simp

theorem gives_ifBlock {n : Node} : Gives (ifBlock env offset ts) n rest ↔
    ∃ c tag body more, ReadsClause env offset ts c tag body more rest ∧ n = .ifBlock c tag body more := by
  rw [ifBlock]; exact gives_clause Node.ifBlock

theorem gives_elseif {a : Alternative} : Gives (elseif env offset ts) a rest ↔
    ∃ c tag body more, ReadsClause env offset ts c tag body more rest ∧ a = .elseif c tag body more := by
  rw [elseif]; exact gives_clause Alternative.elseif

theorem gives_forBlock {n : Node} : Gives (forBlock env offset ts) n rest ↔
    ∃ name second mid source close mid' body mid'', ts = name :: second :: mid ∧ name.kind = .name ∧
      second.kind = .keyword .kwIn ∧ Gives (loopSource env mid) source (close :: mid') ∧
      close.kind = .closer .tag ∧ Gives (nodes (env.enterLoop name.text) mid') body mid'' ∧
      Gives (endfor env mid'') () rest ∧
      n = .forBlock name.text source (env.span offset close) body := by
  rw [forBlock]
  constructor
  · intro h
    obtain ⟨name, _, hname, _, h⟩ := h.of_bind
    obtain ⟨second, mid, hsecond, _, h⟩ := h.of_bind
    obtain ⟨source, _, hsource, _, h⟩ := h.of_bind
    obtain ⟨close, mid', hcloser, _, h⟩ := h.of_bind
    obtain ⟨body, mid'', hbody, _, h⟩ := h.of_bind
    obtain ⟨_, _, hdone, _, h⟩ := h.of_bind
    simp only [gives_pure, Reading.map_parts, Reading.andThen_parts, Reading.andMaybe_parts] at h
    obtain ⟨rfl, rfl⟩ := h
    obtain ⟨rfl, hname⟩ := gives_expect.1 hname
    obtain ⟨rfl, hsecond⟩ := gives_expect.1 hsecond
    obtain ⟨rfl, hclose⟩ := gives_closer.1 hcloser
    exact ⟨name, second, mid, source, close, mid', body, mid'', rfl, ‹_›, ‹_›, hsource, hclose, hbody, hdone, rfl⟩
  · rintro ⟨name, second, mid, source, close, mid', body, mid'', rfl, hname, hsecond, hsource, hclose, hbody, hdone, rfl⟩
    refine Gives.bind (gives_expect.2 ⟨rfl, hname⟩) fun _ => Gives.bind (gives_expect.2 ⟨rfl, hsecond⟩) fun _ => ?_
    refine hsource.bind fun _ => Gives.bind (gives_closer.2 ⟨rfl, hclose⟩) fun _ => ?_
    exact hbody.bind fun _ => hdone.bind fun _ => by simp

/-! ## Nothing runs long -/

/-- What stands before `rest` is derived as `phrase`. -/
def Takes (source : Text) (ts rest : List Token) (phrase : Phrase) : Prop :=
  ∃ used, ts = used ++ rest ∧ Blocks (tokens source) used phrase

def SoundNodes (env : Env) (ts : List Token) : Prop :=
  ∀ ns rest, Orderly ts → Gives (nodes env ts) ns rest → Takes env.source ts rest (.nodes ns)

def SoundNode (env : Env) (ts : List Token) : Prop :=
  ∀ n rest, Orderly ts → Finds env ts n rest → Takes env.source ts rest (.node n)

def SoundFor (env : Env) (offset : Nat) (ts : List Token) : Prop :=
  ∀ n rest, Orderly ts → Gives (forBlock env offset ts) n rest → ∀ text word,
    word.kind = .keyword .kwFor → Takes env.source (⟨.opener .tag, text, offset⟩ :: word :: ts) rest (.node n)

def SoundIf (env : Env) (offset : Nat) (ts : List Token) : Prop :=
  ∀ n rest, Orderly ts → Gives (ifBlock env offset ts) n rest → ∀ text word,
    word.kind = .keyword .kwIf → Takes env.source (⟨.opener .tag, text, offset⟩ :: word :: ts) rest (.node n)

def SoundAlternative (env : Env) (ts : List Token) : Prop :=
  ∀ a rest, Orderly ts → Gives (alternative env ts) a rest → Takes env.source ts rest (.alternative a)

def SoundElseif (env : Env) (offset : Nat) (ts : List Token) : Prop :=
  ∀ a rest, Orderly ts → Gives (elseif env offset ts) a rest → ∀ text words,
    (∀ {inner c}, IsExpr .condition inner c → IsHead .tag (words ++ inner) (.elseifTag c)) →
    Takes env.source (⟨.opener .tag, text, offset⟩ :: (words ++ ts)) rest (.alternative a)

theorem directive_of_isHead {d : Delim} (offset : Nat) (text : Text) {inner : List Token} {head : Head} {close : Token}
    (hhead : IsHead d inner head) (hclose : close.kind = .closer d) :
    (tokens env.source).directive d (⟨.opener d, text, offset⟩ :: (inner ++ [close])) head (env.span offset close) :=
  ⟨_, inner, close, rfl, rfl, hclose, hhead, rfl⟩

theorem soundNodes_step (hfirst : SoundNode env ts)
    (hmore : ∀ first : Reading Node ts.length, SoundNodes env first.rest) : SoundNodes env ts := by
  intro ns rest hts h
  rcases gives_nodes.1 h with ⟨-, rfl, rfl⟩ | ⟨n, mid, ns', hfinds, hgives, rfl⟩
  · exact ⟨[], rfl, .nil⟩
  · obtain ⟨used, rfl, hn⟩ := hfirst n mid hts hfinds
    obtain ⟨used', hsplit, hns⟩ := hmore ⟨n, mid, hfinds.1⟩ ns' rest hts.right hgives
    have hsplit : mid = used' ++ rest := hsplit
    exact ⟨used ++ used', by simp [hsplit], .cons hn hns⟩

theorem node_of_name {text : Text} (h : peek ts = some .name) :
    node env (⟨.opener .tag, text, offset⟩ :: ts) = do
      let u ← unsupported env offset ts
      return some (u.after.map .unsupported) := by
  rw [node]
  · simp only [h]
  · rintro _ _ _ rfl; cases h
  · rintro _ _ _ rfl; cases h

/-- A node found by a reader of one kind. -/
theorem finds_of_bind {α : Type} {m : Nat} {o : Outcome α m} {f : Reading α m → Reading Node ts.length}
    {n : Node} (h : node env ts = do let r ← o; return some (f r)) (hfinds : Finds env ts n rest) :
    ∃ a mid, ∃ below : mid.length < m, Gives o a mid ∧ (f ⟨a, mid, below⟩).value = n ∧
      (f ⟨a, mid, below⟩).rest = rest := by
  obtain ⟨below, hfinds⟩ := hfinds
  rw [h] at hfinds
  cases o with
  | error e => cases hfinds
  | ok r =>
    obtain ⟨a, mid, below'⟩ := r
    have hr : some (f ⟨a, mid, below'⟩) = some ⟨n, rest, below⟩ := Except.ok.inj hfinds
    rw [Option.some.injEq] at hr
    exact ⟨a, mid, below', gives_ok.2 ⟨rfl, rfl⟩, by rw [hr], by rw [hr]⟩

theorem ReadsClause.sound {c : Expr} {tag : Span} {body : List Node} {more : Alternative} (hts : Orderly ts)
    (hbody : ∀ (c : Reading Expr ts.length) (close : Reading Token c.rest.length), SoundNodes env close.rest)
    (hmore : ∀ (c : Reading Expr ts.length) (close : Reading Token c.rest.length)
      (body : Reading (List Node) (close.rest.length + 1)), SoundAlternative env body.rest)
    (h : ReadsClause env offset ts c tag body more rest) :
    ∃ inner close b r, ts = inner ++ close :: (b ++ (r ++ rest)) ∧ close.kind = .closer .tag ∧
      tag = env.span offset close ∧ IsExpr .condition inner c ∧ Blocks (tokens env.source) b (.nodes body) ∧
      Blocks (tokens env.source) r (.alternative more) := by
  obtain ⟨close, mid, mid', hc, hclose, htag, hb, hm⟩ := h
  obtain ⟨inner, hinner, hcondition⟩ := isExpr_of_condition hts hc
  have hmid : Orderly mid := (orderly_cons.1 (Orderly.right (hinner ▸ hts))).2
  obtain ⟨b, hsplit, hns⟩ := hbody ⟨c, _, hc.below⟩ ⟨close, mid, by simp⟩ body mid' hmid hb
  have hsplit : mid = b ++ mid' := hsplit
  obtain ⟨r, hsplit', halt⟩ := hmore ⟨c, _, hc.below⟩ ⟨close, mid, by simp⟩ ⟨body, mid', hb.below⟩ more rest
    (Orderly.right (hsplit ▸ hmid)) hm
  have hsplit' : mid' = r ++ rest := hsplit'
  exact ⟨inner, close, b, r, by rw [hinner, hsplit, hsplit'], hclose, htag, hcondition, hns, halt⟩

theorem soundFor_step
    (hbody : ∀ (name : Reading Token ts.length) (kwIn : Reading Token name.rest.length)
      (source : Reading LoopSource kwIn.rest.length) (close : Reading Token source.rest.length),
      SoundNodes (env.enterLoop name.value.text) close.rest) : SoundFor env offset ts := by
  intro n rest hts h text word hword
  obtain ⟨name, second, mid, source, close, mid', body, mid'', rfl, hname, hsecond, hsource, hclose, hb, hdone, rfl⟩ :=
    gives_forBlock.1 h
  obtain ⟨inner, rfl, hloop⟩ := isLoopSource_of_loopSource (orderly_cons.1 (orderly_cons.1 hts).2).2 hsource
  have hmid : Orderly mid' := (orderly_cons.1 (orderly_cons.1 (orderly_cons.1 hts).2).2.right).2
  obtain ⟨b, hsplit, hns⟩ := hbody ⟨name, second :: (inner ++ close :: mid'), by simp⟩
    ⟨second, inner ++ close :: mid', by simp⟩ ⟨source, _, hsource.below⟩ ⟨close, mid', by simp⟩ body mid'' hmid hb
  have hsplit : mid' = b ++ mid'' := hsplit
  obtain ⟨⟨_, text', o⟩, last, close', rfl, rfl, hlast, hclose'⟩ := gives_endfor.1 hdone
  have hns : Blocks (tokens env.source) b (.nodes body) := hns
  have hblock := Blocks.forBlock (directive_of_isHead offset text (.forTag hword hname hsecond hloop) hclose) hns
    (directive_of_isHead o text' (.endforTag hlast) hclose')
  exact ⟨_, by simp [hsplit], hblock⟩

theorem sound_otherwise {text text' : Text} {o o' : Nat}
    (hif : ∀ text offset more, ts = ⟨.keyword .kwIf, text, offset⟩ :: more → False)
    (hbody : ∀ close : Reading Token ts.length, SoundNodes env close.rest) :
    SoundAlternative env (⟨.opener .tag, text, o⟩ :: ⟨.keyword .kwElse, text', o'⟩ :: ts) := by
  intro a rest hts h
  rw [alternative] at h
  · obtain ⟨close, mid, hcloser, _, h⟩ := h.of_bind
    obtain ⟨body, mid', hb, _, h⟩ := h.of_bind
    obtain ⟨_, _, hdone, _, h⟩ := h.of_bind
    simp only [gives_pure, Reading.map_parts, Reading.after_parts, Reading.andMaybe_parts,
      Reading.andThen_parts] at h
    obtain ⟨rfl, rfl⟩ := h
    obtain ⟨rfl, hclose⟩ := gives_closer.1 hcloser
    have hmid : Orderly mid := (orderly_cons.1 (orderly_cons.1 (orderly_cons.1 hts).2).2).2
    obtain ⟨b, hsplit, hns⟩ := hbody ⟨close, mid, by simp⟩ body mid' hmid hb
    have hsplit : mid = b ++ mid' := hsplit
    obtain ⟨⟨_, text'', o''⟩, last, close', rfl, rfl, hlast, hclose'⟩ := gives_endifAfterElse.1 hdone
    have hhead : IsHead .tag [⟨.keyword .kwElse, text', o'⟩] .elseTag := .elseTag rfl
    exact ⟨_, by simp [hsplit], .otherwise (directive_of_isHead o text hhead hclose) hns
      (directive_of_isHead o'' text'' (.endifTag hlast) hclose')⟩
  · exact hif

theorem sound_blocks :
    (∀ env ts, SoundNodes env ts) ∧ (∀ env ts, SoundNode env ts) ∧ (∀ env offset ts, SoundFor env offset ts) ∧
    (∀ env offset ts, SoundIf env offset ts) ∧ (∀ env ts, SoundAlternative env ts) ∧
    ∀ env offset ts, SoundElseif env offset ts := by
  apply nodes.mutual_induct
  -- lists of nodes, then the blocks behind their first tags
  case case1 => exact fun env ts hfirst hmore => soundNodes_step hfirst hmore
  case case12 => exact fun env offset ts hbody => soundFor_step hbody
  case case13 =>
    intro env offset ts hbody hmore n rest hts h text word hword
    obtain ⟨c, tag, body, more, hclause, rfl⟩ := gives_ifBlock.1 h
    obtain ⟨inner, close, b, r, rfl, hclose, rfl, hc, hns, halt⟩ := hclause.sound hts hbody hmore
    exact ⟨_, by simp, .ifBlock (directive_of_isHead offset text (.ifTag hword hc) hclose) hns halt⟩
  case case20 =>
    intro env offset ts hbody hmore a rest hts h text words hwords
    obtain ⟨c, tag, body, more, hclause, rfl⟩ := gives_elseif.1 h
    obtain ⟨inner, close, b, r, rfl, hclose, rfl, hc, hns, halt⟩ := hclause.sound hts hbody hmore
    exact ⟨_, by simp, .elseif (directive_of_isHead offset text (hwords hc) hclose) hns halt⟩
  -- single nodes: nothing, a text, a comment, a variable, the two blocks, an unsupported tag
  case case2 =>
    intro env n rest _ h
    obtain ⟨_, h⟩ := h
    rw [node] at h
    cases h
  case case3 =>
    intro env raw o ts n rest _ h
    obtain ⟨_, h⟩ := h
    rw [node] at h
    cases h
    exact ⟨[_], rfl, .text ⟨o, rfl⟩⟩
  case case4 =>
    intro env text o ts n rest _ h
    obtain ⟨_, _, _, hcomment, rfl, rfl⟩ := finds_of_bind (by rw [node]) h
    obtain ⟨body, close, rfl, hclose, hbody, rfl⟩ := gives_comment.1 hcomment
    exact ⟨⟨.opener .comment, text, o⟩ :: (body ++ [close]), by simp,
      .comment ⟨_, body, close, rfl, rfl, hclose, hbody, rfl⟩⟩
  case case5 =>
    intro env text o ts n rest hts h
    obtain ⟨⟨p, value, fs, marked, span⟩, _, _, hvar, rfl, rfl⟩ := finds_of_bind (by rw [node]) h
    obtain ⟨inner, close, rfl, hclose, hhead, rfl⟩ := isHead_of_var (orderly_cons.1 hts).2 hvar
    exact ⟨⟨.opener .var, text, o⟩ :: (inner ++ [close]), by simp, .var (directive_of_isHead o text hhead hclose)⟩
  case case6 =>
    intro env text o text' o' ts hblock n rest hts h
    obtain ⟨_, _, _, hif, rfl, rfl⟩ := finds_of_bind (by rw [node]) h
    exact hblock _ _ (orderly_cons.1 (orderly_cons.1 hts).2).2 hif _ _ rfl
  case case7 =>
    intro env text o text' o' ts hblock n rest hts h
    obtain ⟨_, _, _, hfor, rfl, rfl⟩ := finds_of_bind (by rw [node]) h
    exact hblock _ _ (orderly_cons.1 (orderly_cons.1 hts).2).2 hfor _ _ rfl
  case case8 =>
    intro env text o ts hif hfor hname n rest hts h
    obtain ⟨⟨name, closing, span⟩, _, _, hu, rfl, rfl⟩ := finds_of_bind (node_of_name hname) h
    obtain ⟨inner, close, rfl, hclose, hhead, rfl⟩ := gives_unsupported.1 hu
    exact ⟨⟨.opener .tag, text, o⟩ :: (inner ++ [close]), by simp,
      .unsupported (directive_of_isHead o text hhead hclose)⟩
  -- no node starts here
  case case9 =>
    intro env text o ts hif hfor hname hdivides n rest hts h
    obtain ⟨_, h⟩ := h
    rw [node] at h
    · simp [hdivides] at h
    · exact hif
    · exact hfor
  case case10 =>
    intro env text o ts hif hfor hname hdivides n rest hts h
    obtain ⟨_, h⟩ := h
    rw [node] at h
    · simp [hdivides] at h
    · exact hif
    · exact hfor
  case case11 =>
    intro env ts hnil htext hcomment hvar hif hfor htag n rest hts h
    obtain ⟨_, h⟩ := h
    rw [node] at h
    · cases h
    all_goals assumption
  -- what follows a branch: both spellings of a further condition, `else`, `endif`, anything else
  case case14 =>
    intro env text o text' o' ts hclause a rest hts h
    rw [alternative] at h
    obtain ⟨_, _, helseif, _, h⟩ := h.of_bind
    simp only [gives_pure, Reading.after_parts] at h
    obtain ⟨rfl, rfl⟩ := h
    exact hclause _ _ (orderly_cons.1 (orderly_cons.1 hts).2).2 helseif text [_] (.elseif rfl)
  case case15 =>
    intro env text o text' o' text'' o'' ts hclause a rest hts h
    rw [alternative] at h
    obtain ⟨_, _, helseif, _, h⟩ := h.of_bind
    simp only [gives_pure, Reading.after_parts] at h
    obtain ⟨rfl, rfl⟩ := h
    have hts' : Orderly ts := (orderly_cons.1 (orderly_cons.1 (orderly_cons.1 hts).2).2).2
    exact hclause _ _ hts' helseif text [_, _] (.elseIf rfl rfl)
  case case16 =>
    exact fun env text o text' o' ts hif hbody => sound_otherwise hif hbody
  case case17 =>
    intro env text o text' o' ts a rest hts h
    rw [alternative] at h
    obtain ⟨close, _, hcloser, _, h⟩ := h.of_bind
    simp only [gives_pure, Reading.map_parts, Reading.after_parts] at h
    obtain ⟨rfl, rfl⟩ := h
    obtain ⟨rfl, hclose⟩ := gives_closer.1 hcloser
    exact ⟨_ :: ([_] ++ [close]), rfl, .endif (directive_of_isHead o text (.endifTag rfl) hclose)⟩
  case case18 =>
    intro env a rest hts h
    rw [alternative] at h
    exact (not_gives_error h).elim
  case case19 =>
    intro env ts helseif helseIf helse hendif hnil a rest hts h
    rw [alternative] at h
    · exact (not_gives_error h).elim
    all_goals assumption

/-! ## Nothing stops short -/

/-- The template or the block ends here. -/
def EndsBlock (rest : List Token) : Prop :=
  rest = [] ∨ ∃ opening word more, rest = opening :: word :: more ∧ opening.kind = .opener .tag ∧
    dividesBlock word.kind

theorem node_of_endsBlock (h : EndsBlock ts) : node env ts = .ok none := by
  rcases h with rfl | ⟨⟨_, text, o⟩, word, more, rfl, rfl, hword⟩
  · rw [node]
  · obtain ⟨kind, text', o'⟩ := word
    rw [node]
    · simp only [peek_cons]
      split
      · rename_i heq; cases heq; cases hword
      · exact if_pos hword
    · rintro _ _ _ heq; cases heq; cases hword
    · rintro _ _ _ heq; cases heq; cases hword

/-- A directive, token by token. -/
theorem directive_cases {source : Text} {d : Delim} {head : Head} {span : Span}
    (h : (tokens source).directive d ts head span) : ∃ text o inner close,
      (∀ rest, ts ++ rest = ⟨.opener d, text, o⟩ :: (inner ++ close :: rest)) ∧ close.kind = .closer d ∧
      IsHead d inner head ∧ span = ⟨Text.slice source o close.stop, o⟩ := by
  obtain ⟨⟨_, text, o⟩, inner, close, rfl, rfl, hclose, hhead, rfl⟩ := h
  exact ⟨text, o, inner, close, by simp, hclose, hhead, rfl⟩

theorem endsBlock_of_directive {source : Text} {head : Head} {span : Span}
    (h : (tokens source).directive .tag ts head span)
    (hhead : ∀ {inner}, IsHead .tag inner head → ∃ word more, inner = word :: more ∧ dividesBlock word.kind) :
    EndsBlock (ts ++ rest) := by
  obtain ⟨text, o, inner, close, hsplit, -, hinner, -⟩ := directive_cases h
  obtain ⟨word, more, rfl, hword⟩ := hhead hinner
  exact .inr ⟨_, word, _, hsplit rest, rfl, hword⟩

theorem endsBlock_endfor {source : Text} {span : Span} (h : (tokens source).directive .tag ts .endforTag span) :
    EndsBlock (ts ++ rest) :=
  endsBlock_of_directive h fun | .endforTag hword => ⟨_, _, rfl, by rw [hword]; rfl⟩

theorem endsBlock_endif {source : Text} {span : Span} (h : (tokens source).directive .tag ts .endifTag span) :
    EndsBlock (ts ++ rest) :=
  endsBlock_of_directive h fun | .endifTag hword => ⟨_, _, rfl, by rw [hword]; rfl⟩

theorem endsBlock_alternative {source : Text} {a : Alternative} (h : Blocks (tokens source) ts (.alternative a)) :
    EndsBlock (ts ++ rest) := by
  cases h with
  | endif hclose => exact endsBlock_endif hclose
  | otherwise htag =>
    rw [List.append_assoc]
    exact endsBlock_of_directive htag fun | .elseTag hword => ⟨_, _, rfl, by rw [hword]; rfl⟩
  | elseif htag =>
    rw [List.append_assoc]
    refine endsBlock_of_directive htag fun hinner => ?_
    cases hinner with
    | elseif hword => exact ⟨_, _, rfl, by rw [hword]; rfl⟩
    | elseIf hword => exact ⟨_, _, rfl, by rw [hword]; rfl⟩

theorem finds_bind {α : Type} {m : Nat} {o : Outcome α m} {f : Reading α m → Reading Node ts.length} {a : α}
    {mid : List Token} {n : Node} (h : node env ts = do let r ← o; return some (f r)) (ho : Gives o a mid)
    (hf : ∀ below, (f ⟨a, mid, below⟩).value = n ∧ (f ⟨a, mid, below⟩).rest = rest) : Finds env ts n rest := by
  obtain ⟨below, rfl⟩ := ho
  obtain ⟨rfl, rfl⟩ := hf below
  exact ⟨_, h⟩

theorem endfor_of_directive {source : Text} {span : Span} (h : (tokens source).directive .tag ts .endforTag span) :
    Gives (endfor env (ts ++ rest)) () rest := by
  obtain ⟨text, o, _, close, hsplit, hclose, hhead, -⟩ := directive_cases h
  cases hhead with
  | endforTag hword => exact gives_endfor.2 ⟨_, _, close, hsplit rest, rfl, hword, hclose⟩

theorem endifAfterElse_of_directive {source : Text} {span : Span}
    (h : (tokens source).directive .tag ts .endifTag span) : Gives (endifAfterElse env (ts ++ rest)) () rest := by
  obtain ⟨text, o, _, close, hsplit, hclose, hhead, -⟩ := directive_cases h
  cases hhead with
  | endifTag hword => exact gives_endifAfterElse.2 ⟨_, _, close, hsplit rest, rfl, hword, hclose⟩

theorem readsClause_of_isExpr (offset : Nat) {used mid : List Token} {c : Expr} {close : Token} {body : List Node}
    {more : Alternative} (hc : IsExpr .condition used c) (hclose : close.kind = .closer .tag)
    (horderly : Orderly (used ++ close :: ts)) (hbody : Gives (nodes env ts) body mid)
    (hmore : Gives (alternative env mid) more rest) :
    ReadsClause env offset (used ++ close :: ts) (c.rescope env.resolve) (env.span offset close) body more rest :=
  ⟨close, ts, mid, condition_of_isExpr hc horderly hclose, hclose, rfl, hbody, hmore⟩

/-- All spellings of a further condition are read alike. -/
theorem alternative_of_isHead {text : Text} {inner mid : List Token} {c : Expr} {close : Token} {body : List Node}
    {more : Alternative} (hhead : IsHead .tag inner (.elseifTag c)) (hclose : close.kind = .closer .tag)
    (horderly : Orderly (inner ++ close :: ts)) (hbody : Gives (nodes env ts) body mid)
    (hmore : Gives (alternative env mid) more rest) :
    Gives (alternative env (⟨.opener .tag, text, offset⟩ :: (inner ++ close :: ts)))
      (.elseif (c.rescope env.resolve) (env.span offset close) body more) rest := by
  cases hhead with
  | @elseif word used _ hword hc =>
    obtain ⟨_, text', o'⟩ := word
    subst hword
    have hclause := readsClause_of_isExpr offset hc hclose (orderly_cons.1 horderly).2 hbody hmore
    rw [List.cons_append, alternative]
    exact Gives.bind (gives_elseif.2 ⟨_, _, _, _, hclause, rfl⟩) fun _ => by simp
  | @elseIf word second used _ hword hsecond hc =>
    obtain ⟨_, text', o'⟩ := word
    obtain ⟨_, text'', o''⟩ := second
    subst hword hsecond
    have hclause := readsClause_of_isExpr offset hc hclose
      (orderly_cons.1 (orderly_cons.1 horderly).2).2 hbody hmore
    rw [List.cons_append, List.cons_append, alternative]
    exact Gives.bind (gives_elseif.2 ⟨_, _, _, _, hclause, rfl⟩) fun _ => by simp

/-- The readers of blocks take the tokens of a phrase and leave `rest`. -/
def ReadsPhrase (env : Env) (ts : List Token) (rest : List Token) : Phrase → Prop
  | .node n => Finds env ts (n.rescope (.lexical env.ns) env.bound) rest
  | .nodes ns => EndsBlock rest → Gives (nodes env ts) (Template.rescope (.lexical env.ns) env.bound ns) rest
  | .alternative a => Gives (alternative env ts) (a.rescope (.lexical env.ns) env.bound) rest

theorem reads_blocks {source : Text} {ts : List Token} {phrase : Phrase} (h : Blocks (tokens source) ts phrase) :
    ∀ env rest, env.source = source → Orderly (ts ++ rest) → ReadsPhrase env (ts ++ rest) rest phrase := by
  induction h with
  | nil =>
    intro env rest _ _ hends
    exact gives_nodes.2 (.inl ⟨node_of_endsBlock hends, rfl, rfl⟩)
  | cons hfirst hmore ihf ihm =>
    intro env rest hsource horderly hends
    rw [List.append_assoc] at horderly ⊢
    exact gives_nodes.2 (.inr ⟨_, _, _, ihf env _ hsource horderly, ihm env _ hsource horderly.right hends, rfl⟩)
  | text h =>
    intro env rest _ _
    obtain ⟨o, rfl⟩ := h
    exact ⟨Nat.lt_add_one _, by show node env (_ :: rest) = _; rw [node]; rfl⟩
  | comment h =>
    intro env rest hsource horderly
    obtain ⟨⟨_, text, o⟩, body, close, rfl, rfl, hclose, hbody, rfl⟩ := h
    subst hsource
    rw [List.cons_append, List.append_assoc, List.singleton_append]
    exact finds_bind (by rw [node]) (gives_comment.2 ⟨body, close, rfl, hclose, hbody, rfl⟩) fun _ => ⟨rfl, rfl⟩
  | var h =>
    intro env rest hsource horderly
    obtain ⟨text, o, inner, close, hsplit, hclose, hhead, rfl⟩ := directive_cases h
    subst hsource
    rw [hsplit] at horderly ⊢
    exact finds_bind (by rw [node]) (var_of_isHead hhead hclose (orderly_cons.1 horderly).2) fun _ => ⟨rfl, rfl⟩
  | unsupported h =>
    intro env rest hsource horderly
    obtain ⟨text, o, inner, close, hsplit, hclose, hhead, rfl⟩ := directive_cases h
    subst hsource
    have hname : peek (inner ++ close :: rest) = some .name := by
      cases hhead <;> simp_all [peek_cons]
    rw [hsplit] at horderly ⊢
    exact finds_bind (node_of_name hname) (gives_unsupported.2 ⟨inner, close, rfl, hclose, hhead, rfl⟩)
      fun _ => ⟨rfl, rfl⟩
  | @ifBlock a b r c tag body more htag hbody hmore ihb ihm =>
    intro env rest hsource horderly
    obtain ⟨text, o, inner, close, hsplit, hclose, hhead, rfl⟩ := directive_cases htag
    subst hsource
    rw [List.append_assoc, List.append_assoc, hsplit] at horderly ⊢
    have hb : Orderly (b ++ (r ++ rest)) := (orderly_cons.1 (orderly_cons.1 horderly).2.right).2
    cases hhead with
    | @ifTag word used _ hword hc =>
      obtain ⟨_, text', o'⟩ := word
      subst hword
      have hclause := readsClause_of_isExpr o hc hclose (orderly_cons.1 (orderly_cons.1 horderly).2).2
        (ihb env _ rfl hb (endsBlock_alternative hmore)) (ihm env rest rfl hb.right)
      rw [List.cons_append]
      exact finds_bind (by rw [node]) (gives_ifBlock.2 ⟨_, _, _, _, hclause, rfl⟩)
        fun _ => ⟨rfl, rfl⟩
  | @forBlock a b r name source tag close body htag hbody hend ihb =>
    intro env rest hsource horderly
    obtain ⟨text, o, inner, close, hsplit, hclose, hhead, rfl⟩ := directive_cases htag
    subst hsource
    rw [List.append_assoc, List.append_assoc, hsplit] at horderly ⊢
    have hb : Orderly (b ++ (r ++ rest)) := (orderly_cons.1 (orderly_cons.1 horderly).2.right).2
    cases hhead with
    | @forTag word name second used _ hword hname hsecond hloop =>
      obtain ⟨_, text', o'⟩ := word
      subst hword
      have hused := (orderly_cons.1 (orderly_cons.1 (orderly_cons.1 (orderly_cons.1 horderly).2).2).2).2
      have hsource : Gives (loopSource env (used ++ close :: _)) _ _ :=
        loopSource_of_isLoopSource hloop hused (.of_kind (by simp [hclose]))
      have hnodes := ihb (env.enterLoop name.text) _ rfl hb (endsBlock_endfor hend)
      rw [List.cons_append, List.cons_append, List.cons_append]
      exact finds_bind (by rw [node]) (gives_forBlock.2 ⟨name, second, _, _, close, _, _, _, rfl, hname, hsecond,
        hsource, hclose, hnodes, endfor_of_directive hend, rfl⟩) fun _ => ⟨rfl, rfl⟩
  | endif hend =>
    intro env rest hsource horderly
    obtain ⟨text, o, _, close, hsplit, hclose, hhead, -⟩ := directive_cases hend
    cases hhead with
    | @endifTag word hword =>
      obtain ⟨_, text', o'⟩ := word
      subst hword
      rw [hsplit]
      show Gives (alternative env (_ :: _ :: close :: rest)) _ _
      rw [alternative]
      exact Gives.bind (gives_closer.2 ⟨rfl, hclose⟩) fun _ => by simp [Alternative.rescope]
  | @otherwise a b r tag close body htag hbody hend ihb =>
    intro env rest hsource horderly
    obtain ⟨text, o, _, close, hsplit, hclose, hhead, -⟩ := directive_cases htag
    rw [List.append_assoc, List.append_assoc, hsplit] at horderly ⊢
    have hb : Orderly (b ++ (r ++ rest)) := (orderly_cons.1 (orderly_cons.1 horderly).2.right).2
    have hnodes := ihb env _ hsource hb (endsBlock_endif hend)
    cases hhead with
    | @elseTag word hword =>
      obtain ⟨_, text', o'⟩ := word
      subst hword
      show Gives (alternative env (_ :: _ :: close :: (b ++ (r ++ rest)))) _ _
      rw [alternative]
      · refine Gives.bind (gives_closer.2 ⟨rfl, hclose⟩) fun _ => ?_
        exact hnodes.bind fun _ => (endifAfterElse_of_directive hend).bind fun _ => by simp [Alternative.rescope]
      · rintro _ _ _ heq; cases heq; cases hclose
  | @elseif a b r c tag body more htag hbody hmore ihb ihm =>
    intro env rest hsource horderly
    obtain ⟨text, o, inner, close, hsplit, hclose, hhead, rfl⟩ := directive_cases htag
    subst hsource
    rw [List.append_assoc, List.append_assoc, hsplit] at horderly ⊢
    have hb : Orderly (b ++ (r ++ rest)) := (orderly_cons.1 (orderly_cons.1 horderly).2.right).2
    exact alternative_of_isHead hhead hclose (orderly_cons.1 horderly).2
      (ihb env _ rfl hb (endsBlock_alternative hmore)) (ihm env rest rfl hb.right)

end Reader

/-! ## Whole templates -/

open Grammar Reader

variable {source ns : Text} {ts : List Token} {t : Template}

theorem Template.ofTokens_eq_ok_iff_gives :
    Template.ofTokens source ts ns = .ok t ↔ Gives (nodes ⟨source, ns, []⟩ ts) t [] := by
  constructor
  · intro h
    unfold Template.ofTokens at h
    dsimp only at h
    cases hnodes : nodes ⟨source, ns, []⟩ ts with
    | error e => rw [hnodes] at h; cases h
    | ok all =>
      rw [hnodes] at h
      obtain ⟨value, rest, below⟩ := all
      cases rest with
      | nil => cases h; exact ⟨below, rfl⟩
      | cons first rest =>
        simp only [bind, Except.bind] at h
        split at h <;> cases h
  · rintro ⟨below, h⟩
    simp [Template.ofTokens, h, bind, Except.bind, pure, Except.pure]

/-- What the grammar derives is read, with the scopes of the namespace. -/
theorem Template.ofTokens_of_isTemplate (hts : Orderly ts) (h : IsTemplate source ts t) :
    Template.ofTokens source ts ns = .ok (Template.rescope (.lexical ns) [] t) := by
  have hreads := reads_blocks h ⟨source, ns, []⟩ [] rfl (by simpa using hts) (.inl rfl)
  rw [List.append_nil] at hreads
  exact Template.ofTokens_eq_ok_iff_gives.2 hreads

/-- **Tokens are read as a template exactly if the grammar derives it, with the right scopes.** -/
theorem Template.ofTokens_eq_ok_iff (hts : Orderly ts) :
    Template.ofTokens source ts ns = .ok t ↔
      IsTemplate source ts t ∧ Template.rescope (.lexical ns) [] t = t := by
  constructor
  · intro h
    obtain ⟨used, hsplit, hblocks⟩ := sound_blocks.1 _ ts t [] hts (Template.ofTokens_eq_ok_iff_gives.1 h)
    rw [List.append_nil] at hsplit
    subst hsplit
    rw [Template.ofTokens_of_isTemplate hts hblocks] at h
    exact ⟨hblocks, Except.ok.inj h⟩
  · rintro ⟨hblocks, hscope⟩
    rw [Template.ofTokens_of_isTemplate hts hblocks, hscope]

/-- **Reading accepts exactly the grammar, and builds the one tree of the derivation, scopes apart.** -/
theorem Template.reads_exactly_grammar (hscan : Token.scan source = .ok ts) (ns : Text) :
    ((∃ t, Template.ofTokens source ts ns = .ok t) ↔ ∃ t, IsTemplate source ts t) ∧
    ∀ t, Template.ofTokens source ts ns = .ok t → IsTemplate source ts t ∧
      ∀ t', IsTemplate source ts t' → Template.unscoped t' = Template.unscoped t := by
  have hts : Orderly ts := (Token.scan_eq_ok_iff.1 hscan).orderly
  refine ⟨⟨?_, ?_⟩, fun t h => ?_⟩
  · rintro ⟨t, h⟩
    exact ⟨t, ((Template.ofTokens_eq_ok_iff hts).1 h).1⟩
  · rintro ⟨t, h⟩
    exact ⟨_, Template.ofTokens_of_isTemplate hts h⟩
  · refine ⟨((Template.ofTokens_eq_ok_iff hts).1 h).1, fun t' h' => ?_⟩
    rw [Template.ofTokens_of_isTemplate hts h'] at h
    rw [← Except.ok.inj h, Template.unscoped, Template.unscoped, Template.rescope_rescope]

/-- The marker is a name like any other before a point, and a keyword may be a property. -/
theorem Template.reads_exactly_grammar_marker : ∃ ts,
    (Token.scan (Delim.var.enclose "var.in".toList) = .ok ts ∧
      (Template.ofTokens (Delim.var.enclose "var.in".toList) ts "params".toList).isOk = true) ∧
    ((∃ t, Template.ofTokens (Delim.var.enclose "var.in".toList) ts "params".toList = .ok t) ↔
      ∃ t, IsTemplate (Delim.var.enclose "var.in".toList) ts t) ∧
    ∀ t, Template.ofTokens (Delim.var.enclose "var.in".toList) ts "params".toList = .ok t →
      IsTemplate (Delim.var.enclose "var.in".toList) ts t ∧
      ∀ t', IsTemplate (Delim.var.enclose "var.in".toList) ts t' → Template.unscoped t' = Template.unscoped t := by
  refine (exists_ok_of_toOption ?_).imp fun ts h => ⟨h, Template.reads_exactly_grammar h.1 "params".toList⟩
  decide +kernel

end MailDialect
