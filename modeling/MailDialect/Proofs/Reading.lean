import MailDialect.Proofs.Grammar
import MailDialect.Proofs.Scan
import MailDialect.Proofs.Scoping
import MailDialect.Template.Reader.Condition
import MailDialect.Template.Reader.Directive

/-!
# Readers of operands follow the grammar

Two halves for every reader of literals, filters, paths and bounds. Nothing runs long: what it takes
is derived by the grammar. Nothing stops short: it takes the tokens of a derivation whenever the token
after them does not go on with the operand (`Stops`).
-/

namespace MailDialect

/-! ## Results -/

section
variable {ε α β : Type} {x : Except ε α} {f : α → β}

theorem exists_ok_of_toOption {b : β} (h : x.toOption.map f = some b) : ∃ a, x = .ok a ∧ f a = b := by
  cases x with
  | error e => cases h
  | ok a => exact ⟨a, rfl, Option.some.inj h⟩

theorem error_of_map_eq {e : ε} (h : x.map f = .error e) : x = .error e := by
  cases x with
  | error found => exact congrArg _ (Except.error.inj h)
  | ok a => cases h

end

end MailDialect

namespace MailDialect.Reader

open Grammar

/-! ## What a reader gives -/

namespace Reading

variable {α β : Type} {m n : Nat} {t : Token} {rest : List Token}

@[simp] theorem map_parts (f : α → β) (r : Reading α n) :
    (r.map f).value = f r.value ∧ (r.map f).rest = r.rest := ⟨rfl, rfl⟩

@[simp] theorem nothing_parts (value : α) (ts : List Token) :
    (nothing value ts).value = value ∧ (nothing value ts).rest = ts := ⟨rfl, rfl⟩

@[simp] theorem one_parts (value : α) :
    (one value : Reading α (t :: rest).length).value = value ∧
      (one value : Reading α (t :: rest).length).rest = rest := ⟨rfl, rfl⟩

@[simp] theorem widen_parts (r : Reading α m) (h : m ≤ n) :
    (r.widen h).value = r.value ∧ (r.widen h).rest = r.rest := ⟨rfl, rfl⟩

@[simp] theorem relax_parts (r : Reading α n) : r.relax.value = r.value ∧ r.relax.rest = r.rest := ⟨rfl, rfl⟩

@[simp] theorem after_parts (r : Reading α rest.length) :
    (r.after : Reading α (t :: rest).length).value = r.value ∧
      (r.after : Reading α (t :: rest).length).rest = r.rest := ⟨rfl, rfl⟩

@[simp] theorem andThen_parts (first : Reading α n) (second : Reading β first.rest.length) :
    (first.andThen second).value = second.value ∧ (first.andThen second).rest = second.rest := ⟨rfl, rfl⟩

@[simp] theorem andMaybe_parts (first : Reading α n) (second : Reading β (first.rest.length + 1)) :
    (first.andMaybe second).value = second.value ∧ (first.andMaybe second).rest = second.rest := ⟨rfl, rfl⟩

@[simp] theorem andAfter_parts (first : Reading α n) (h : first.rest = t :: rest)
    (second : Reading β rest.length) :
    (first.andAfter h second).value = second.value ∧ (first.andAfter h second).rest = second.rest := ⟨rfl, rfl⟩

end Reading

/-- The reader succeeds with `value` and leaves `rest`. -/
def Gives {α : Type} {n : Nat} (o : Outcome α n) (value : α) (rest : List Token) : Prop :=
  ∃ below, o = .ok ⟨value, rest, below⟩

section
variable {α β : Type} {m n : Nat} {o : Outcome α m} {k : Reading α m → Outcome β n} {a : α} {value : β}
  {mid rest : List Token}

@[simp] theorem gives_ok {r : Reading β n} : Gives (.ok r) value rest ↔ r.value = value ∧ r.rest = rest := by
  obtain ⟨v, rs, below⟩ := r
  simp only [Gives, Except.ok.injEq, Reading.mk.injEq, exists_prop]
  constructor
  · rintro ⟨-, h⟩; exact h
  · rintro ⟨rfl, rfl⟩; exact ⟨below, rfl, rfl⟩

@[simp] theorem gives_pure {r : Reading β n} :
    Gives (pure r : Outcome β n) value rest ↔ r.value = value ∧ r.rest = rest := gives_ok

@[simp] theorem not_gives_error {e : GrammarError} : ¬Gives (.error e : Outcome β n) value rest := by
  rintro ⟨_, h⟩; cases h

theorem Gives.bind (h : Gives o a mid) (hk : ∀ below, Gives (k ⟨a, mid, below⟩) value rest) :
    Gives (o >>= k) value rest := by
  obtain ⟨below, rfl⟩ := h
  exact hk below

theorem Gives.of_bind (h : Gives (o >>= k) value rest) :
    ∃ a mid, Gives o a mid ∧ ∃ below, Gives (k ⟨a, mid, below⟩) value rest := by
  cases o with
  | error e => exact (not_gives_error h).elim
  | ok r => exact ⟨r.value, r.rest, gives_ok.2 ⟨rfl, rfl⟩, r.below, h⟩

end

section
variable {env : Env} {ts rest : List Token}

theorem peek_cons (t : Token) (ts : List Token) : peek (t :: ts) = some t.kind := rfl

theorem gives_expect {kind : Token.Kind} {expected : Expectation} {t : Token} :
    Gives (expect env kind expected ts) t rest ↔ ts = t :: rest ∧ t.kind = kind := by
  unfold expect
  split
  · split
    · rename_i hkind
      rw [gives_ok]
      constructor
      · rintro ⟨rfl, rfl⟩; exact ⟨rfl, hkind⟩
      · rintro ⟨heq, -⟩; cases heq; exact ⟨rfl, rfl⟩
    · rename_i hkind
      refine ⟨fun h => (not_gives_error h).elim, ?_⟩
      rintro ⟨heq, hk⟩; cases heq; exact (hkind hk).elim
  · exact ⟨fun h => (not_gives_error h).elim, by simp⟩

/-- The token after an operand goes on with it by a filter at most. -/
def Ends (rest : List Token) : Prop :=
  ∀ p, peek rest = some (.punct p) → p ≠ .dot ∧ p ≠ .colon ∧ p ≠ .lparen ∧ p ≠ .comma

/-- The token after an operand does not go on with it. -/
def Stops (rest : List Token) : Prop :=
  Ends rest ∧ peek rest ≠ some (.punct .pipe)

theorem Stops.of_kind {t : Token} (h : ∀ p, t.kind ≠ .punct p) : Stops (t :: rest) :=
  ⟨fun p hp => (h p (Option.some.inj hp)).elim, fun hp => h _ (Option.some.inj hp)⟩

theorem Ends.of_kind {t : Token} {p : Punct} (h : t.kind = .punct p)
    (hp : p ≠ .dot ∧ p ≠ .colon ∧ p ≠ .lparen ∧ p ≠ .comma) : Ends (t :: rest) := by
  intro q hq
  rw [peek_cons, h] at hq
  cases hq
  exact hp

/-! ## Literals -/

theorem peek_literal {used : List Token} {l : Literal} (h : IsLiteral used l) :
    ∃ kind, peek (used ++ rest) = some kind ∧ startsLiteral kind := by
  cases h <;> exact ⟨_, rfl, rfl⟩

theorem peek_literal_ne {used : List Token} {l : Literal} (h : IsLiteral used l) {kind : Token.Kind}
    (hkind : startsLiteral kind = false) : peek (used ++ rest) ≠ some kind := by
  rintro heq
  cases h <;> · cases heq; cases hkind

/-- The reader of literals is exact. -/
theorem gives_literal {l : Literal} :
    Gives (literal env ts) l rest ↔ ∃ used, ts = used ++ rest ∧ IsLiteral used l := by
  constructor
  · unfold literal
    split
    · rw [gives_ok]; rintro ⟨rfl, rfl⟩; exact ⟨_, rfl, .string⟩
    · rw [gives_ok]; rintro ⟨rfl, rfl⟩; exact ⟨_, rfl, .number⟩
    · rw [gives_ok]; rintro ⟨rfl, rfl⟩; exact ⟨_, rfl, .yes⟩
    · rw [gives_ok]; rintro ⟨rfl, rfl⟩; exact ⟨_, rfl, .no⟩
    · rw [gives_ok]; rintro ⟨rfl, rfl⟩; exact ⟨_, rfl, .negative⟩
    · exact fun h => (not_gives_error h).elim
  · rintro ⟨used, rfl, h⟩
    cases h <;> exact gives_ok.2 ⟨rfl, rfl⟩

/-! ## Lists with commas -/

section
variable {α : Type} {item : (ts : List Token) → Outcome α ts.length} {Item : List Token → α → Prop}

theorem commaList_of_commaSeparated
    (hitem : ∀ ts a rest, Orderly ts → Gives (item ts) a rest → ∃ used, ts = used ++ rest ∧ Item used a)
    (ts : List Token) {rest : List Token} {as : List α} (hts : Orderly ts)
    (h : Gives (commaSeparated item ts) as rest) : ∃ used, ts = used ++ rest ∧ CommaList Item used as := by
  rw [commaSeparated] at h
  obtain ⟨a, mid, hfirst, below, h⟩ := h.of_bind
  obtain ⟨used, hsplit, ha⟩ := hitem _ _ _ hts hfirst
  dsimp only at h
  split at h
  · rename_i text o more
    have hshort : more.length + 1 < ts.length := below
    obtain ⟨as', _, hmore, _, h⟩ := h.of_bind
    simp only [gives_pure, Reading.map_parts, Reading.andAfter_parts] at h
    obtain ⟨rfl, rfl⟩ := h
    obtain ⟨used', rfl, has⟩ := commaList_of_commaSeparated hitem more
      (orderly_cons.1 (Orderly.right (hsplit ▸ hts))).2 hmore
    exact ⟨used ++ ⟨.punct .comma, text, o⟩ :: used', by simp [hsplit], .more ha rfl has⟩
  · simp only [gives_pure, Reading.map_parts] at h
    obtain ⟨rfl, rfl⟩ := h
    exact ⟨used, hsplit, .one ha⟩
termination_by ts.length

theorem commaSeparated_of_commaList (Follow : List Token → Prop)
    (hitem : ∀ used a rest, Item used a → Orderly (used ++ rest) → Follow rest → Gives (item (used ++ rest)) a rest)
    (hcomma : ∀ t rest, t.kind = .punct .comma → Follow (t :: rest)) {used : List Token} {as : List α}
    (h : CommaList Item used as) (horderly : Orderly (used ++ rest)) (hfollow : Follow rest)
    (hrest : peek rest ≠ some (.punct .comma)) : Gives (commaSeparated item (used ++ rest)) as rest := by
  induction h with
  | one ha =>
    rw [commaSeparated]
    refine (hitem _ _ _ ha horderly hfollow).bind fun below => ?_
    dsimp only
    split
    · exact (hrest rfl).elim
    · exact gives_ok.2 ⟨rfl, rfl⟩
  | @more used used' comma a as ha hkind hmore ih =>
    obtain ⟨_, text, o⟩ := comma
    subst hkind
    rw [List.append_assoc] at horderly ⊢
    rw [commaSeparated]
    refine (hitem _ _ _ ha horderly (hcomma _ _ rfl)).bind fun below => ?_
    exact (ih (orderly_cons.1 horderly.right).2).bind fun below' => gives_ok.2 ⟨rfl, rfl⟩

theorem peek_commaList_ne {kind : Token.Kind}
    (hitem : ∀ used a rest, Item used a → peek (used ++ rest) ≠ some kind) {used : List Token} {as : List α}
    (h : CommaList Item used as) : peek (used ++ rest) ≠ some kind := by
  cases h with
  | one h => exact hitem _ _ _ h
  | more h => rw [List.append_assoc]; exact hitem _ _ _ h

end

theorem commaList_of_literals {ls : List Literal} (hts : Orderly ts) (h : Gives (literals env ts) ls rest) :
    ∃ used, ts = used ++ rest ∧ CommaList IsLiteral used ls :=
  commaList_of_commaSeparated (fun _ _ _ _ h => gives_literal.1 h) _ hts h

theorem literals_of_commaList {used : List Token} {ls : List Literal} (h : CommaList IsLiteral used ls)
    (horderly : Orderly (used ++ rest)) (hrest : peek rest ≠ some (.punct .comma)) :
    Gives (literals env (used ++ rest)) ls rest :=
  commaSeparated_of_commaList (fun _ => True)
    (fun _ _ _ h _ _ => gives_literal.2 ⟨_, rfl, h⟩) (fun _ _ _ => trivial) h horderly trivial hrest

/-! ## Filters -/

theorem isFilter_of_filter {f : Filter} (hts : Orderly ts) (h : Gives (filter env ts) f rest) :
    ∃ used, ts = used ++ rest ∧ IsFilter used f := by
  unfold filter at h
  obtain ⟨name, mid, hexpect, _, h⟩ := h.of_bind
  obtain ⟨rfl, hname⟩ := gives_expect.1 hexpect
  dsimp only at h
  split at h
  · obtain ⟨args, _, hliterals, _, h⟩ := h.of_bind
    simp only [gives_pure, Reading.map_parts, Reading.andAfter_parts] at h
    obtain ⟨rfl, rfl⟩ := h
    obtain ⟨used, rfl, hargs⟩ := commaList_of_literals (orderly_cons.1 (orderly_cons.1 hts).2).2 hliterals
    exact ⟨_ :: _ :: used, rfl, .colon hname rfl hargs⟩
  · simp only [gives_pure, Reading.one_parts, Reading.andAfter_parts] at h
    obtain ⟨rfl, rfl⟩ := h
    exact ⟨[_, _, _], rfl, .emptyCall hname rfl rfl⟩
  · obtain ⟨args, mid, hliterals, _, h⟩ := h.of_bind
    obtain ⟨close, _, hparen, _, h⟩ := h.of_bind
    obtain ⟨rfl, hclose⟩ := gives_expect.1 hparen
    simp only [gives_pure, Reading.map_parts, Reading.andAfter_parts, Reading.andThen_parts] at h
    obtain ⟨rfl, rfl⟩ := h
    obtain ⟨used, rfl, hargs⟩ := commaList_of_literals (orderly_cons.1 (orderly_cons.1 hts).2).2 hliterals
    rw [List.append_cons]
    exact ⟨_ :: _ :: (used ++ [close]), rfl, .call hname rfl hargs hclose⟩
  · simp only [gives_pure, Reading.map_parts] at h
    obtain ⟨rfl, rfl⟩ := h
    exact ⟨[_], rfl, .bare hname⟩

theorem filter_of_isFilter {used : List Token} {f : Filter} (h : IsFilter used f)
    (horderly : Orderly (used ++ rest)) (hends : Ends rest) : Gives (filter env (used ++ rest)) f rest := by
  cases h with
  | bare hname =>
    rw [List.singleton_append]
    refine (gives_expect.2 ⟨rfl, hname⟩).bind fun _ => ?_
    dsimp only
    split
    · exact ((hends _ rfl).2.1 rfl).elim
    · exact ((hends _ rfl).2.2.1 rfl).elim
    · exact ((hends _ rfl).2.2.1 rfl).elim
    · simp
  | @colon name colon used args hname hkind hargs =>
    obtain ⟨_, text, o⟩ := colon
    subst hkind
    refine (gives_expect.2 ⟨rfl, hname⟩).bind fun _ => ?_
    refine (literals_of_commaList hargs ?_ fun hcomma => (hends _ hcomma).2.2.2 rfl).bind fun _ => by simp
    exact (orderly_cons.1 (orderly_cons.1 horderly).2).2
  | @emptyCall name opening closing hname hopening hclosing =>
    obtain ⟨_, text, o⟩ := opening
    obtain ⟨_, text', o'⟩ := closing
    subst hopening hclosing
    exact (gives_expect.2 ⟨rfl, hname⟩).bind fun _ => by simp
  | @call name opening closing used args hname hopening hargs hclosing =>
    obtain ⟨_, text, o⟩ := opening
    subst hopening
    rw [List.cons_append, List.cons_append, List.append_assoc, List.singleton_append] at horderly ⊢
    have hliterals : Gives (literals env (used ++ closing :: rest)) args (closing :: rest) :=
      literals_of_commaList hargs (orderly_cons.1 (orderly_cons.1 horderly).2).2 (by simp [peek_cons, hclosing])
    refine (gives_expect.2 ⟨rfl, hname⟩).bind fun _ => ?_
    dsimp only
    split
    · rename_i heq; cases heq
    · rename_i heq
      have hne : peek (used ++ closing :: rest) ≠ some (.punct .rparen) :=
        peek_commaList_ne (fun _ _ _ h => peek_literal_ne h rfl) hargs
      exact (hne (congrArg peek (List.cons.inj heq).2)).elim
    · rename_i heq
      obtain ⟨-, rfl⟩ := List.cons.inj heq
      exact hliterals.bind fun _ => (gives_expect.2 ⟨rfl, hclosing⟩).bind fun _ => by simp
    · rename_i hne; exact (hne _ _ _ rfl).elim

theorem isFilters_of_filters {fs : List Filter} (hts : Orderly ts) (h : Gives (filters env ts) fs rest) :
    ∃ used, ts = used ++ rest ∧ IsFilters used fs := by
  induction ts using filters.induct generalizing fs with
  | case1 text o more ih =>
    rw [filters] at h
    obtain ⟨f, mid, hfirst, below, h⟩ := h.of_bind
    obtain ⟨fs', _, hmore, _, h⟩ := h.of_bind
    simp only [gives_pure, Reading.map_parts, Reading.relax_parts, Reading.after_parts,
      Reading.andMaybe_parts] at h
    obtain ⟨rfl, rfl⟩ := h
    obtain ⟨used, rfl, hf⟩ := isFilter_of_filter (orderly_cons.1 hts).2 hfirst
    obtain ⟨used', hsplit, hfs⟩ := ih ⟨f, mid, below⟩ (orderly_cons.1 hts).2.right hmore
    subst hsplit
    rw [← List.append_assoc]
    exact ⟨_ :: (used ++ used'), rfl, .cons rfl hf hfs⟩
  | case2 ts hbar =>
    rw [filters] at h
    · simp only [gives_ok, Reading.nothing_parts] at h
      obtain ⟨rfl, rfl⟩ := h
      exact ⟨[], rfl, .nil⟩
    · exact hbar

theorem ends_of_isFilters {used : List Token} {fs : List Filter} (h : IsFilters used fs) (hstops : Stops rest) :
    Ends (used ++ rest) := by
  cases h with
  | nil => exact hstops.1
  | cons hbar => exact .of_kind hbar (by simp)

theorem filters_of_isFilters {used : List Token} {fs : List Filter} (h : IsFilters used fs)
    (horderly : Orderly (used ++ rest)) (hstops : Stops rest) : Gives (filters env (used ++ rest)) fs rest := by
  induction h with
  | nil =>
    unfold filters
    dsimp only [List.nil_append]
    split
    · exact (hstops.2 rfl).elim
    · simp
  | @cons bar used used' f fs hbar hf hfs ih =>
    obtain ⟨_, text, o⟩ := bar
    subst hbar
    rw [List.cons_append, List.append_assoc] at horderly ⊢
    have hnext := (orderly_cons.1 horderly).2
    rw [filters]
    refine (filter_of_isFilter hf hnext (ends_of_isFilters hfs hstops)).bind fun _ => ?_
    exact (ih hnext.right).bind fun _ => by simp

/-! ## Paths -/

theorem isFields_of_fields {fs : List Text} (hts : Orderly ts) (h : Gives (fields env ts) fs rest) :
    ∃ used, ts = used ++ rest ∧ IsFields used fs := by
  induction ts using fields.induct generalizing fs with
  | case1 text o t more hword ih =>
    rw [fields, if_pos hword] at h
    obtain ⟨fs', _, hmore, _, h⟩ := h.of_bind
    simp only [gives_pure, Reading.map_parts, Reading.relax_parts] at h
    obtain ⟨rfl, rfl⟩ := h
    obtain ⟨hhead, hnext⟩ := orderly_cons.1 hts
    obtain ⟨used, rfl, hfs⟩ := ih (orderly_cons.1 hnext).2 hmore
    rw [hhead t (by simp) ⟨_, rfl⟩] at hword
    exact ⟨_ :: t :: used, rfl, .cons rfl (by simpa using hword) hfs⟩
  | case2 text o t more hword =>
    rw [fields, if_neg hword] at h
    exact (not_gives_error h).elim
  | case3 text o => exact (not_gives_error h).elim
  | case4 ts hpoint hlast =>
    rw [fields] at h
    · simp only [gives_ok, Reading.nothing_parts] at h
      obtain ⟨rfl, rfl⟩ := h
      exact ⟨[], rfl, .nil⟩
    · exact hpoint
    · exact hlast

theorem fields_of_isFields {used : List Token} {fs : List Text} (h : IsFields used fs)
    (horderly : Orderly (used ++ rest)) (hdot : peek rest ≠ some (.punct .dot)) :
    Gives (fields env (used ++ rest)) fs rest := by
  induction h with
  | nil =>
    unfold fields
    dsimp only [List.nil_append]
    split
    · exact (hdot rfl).elim
    · exact (hdot rfl).elim
    · simp
  | @cons point field used fs hpoint hfield hmore ih =>
    obtain ⟨_, text, o⟩ := point
    subst hpoint
    obtain ⟨hhead, hnext⟩ := orderly_cons.1 horderly
    have hword : (field.isWordLike || field.kind == .number) = true := by
      rw [hhead field (by simp) ⟨_, rfl⟩]; simpa using hfield
    rw [List.cons_append, List.cons_append, fields, if_pos hword]
    exact (ih (orderly_cons.1 hnext).2).bind fun _ => by simp

/-- A colon and a word, which make a marker of the name before them. -/
def Marks (ts : List Token) : Prop :=
  ∃ colon t more, ts = colon :: t :: more ∧ colon.kind = .punct .colon ∧ t.isWordLike

theorem marker_of_not_marks {t : Token} (h : ¬Marks ts) : marker (t :: ts) = (false, t :: ts) := by
  unfold marker
  split
  · rename_i heq
    obtain ⟨rfl, rfl⟩ := List.cons.inj heq
    rw [if_neg]
    simp only [Bool.and_eq_true, not_and]
    exact fun _ hword => h ⟨_, _, _, rfl, rfl, hword⟩
  · rfl

theorem marker_cases (ts : List Token) :
    marker ts = (false, ts) ∨ ∃ word colon more, ts = word :: colon :: more ∧ marker ts = (true, more) ∧
      word.kind = .name ∧ word.text = Dialect.marker ∧ colon.kind = .punct .colon := by
  unfold marker
  split
  · split
    · rename_i hmark
      simp only [Bool.and_eq_true, beq_iff_eq] at hmark
      exact .inr ⟨_, _, _, rfl, rfl, rfl, hmark.1, rfl⟩
    · exact .inl rfl
  · exact .inl rfl

theorem gives_path {expected : Expectation} {p : Path} {marked : Bool} :
    Gives (path env expected ts) (p, marked) rest ↔ ∃ base mid, marker ts = (marked, base :: mid) ∧
      base.kind = .name ∧ ∃ fs, Gives (fields env mid) fs rest ∧ p = ⟨base.text, fs, env.resolve base.text⟩ := by
  constructor
  · intro h
    obtain ⟨base, mid, hexpect, _, h⟩ := h.of_bind
    obtain ⟨hmarker, hbase⟩ := gives_expect.1 hexpect
    obtain ⟨fs, _, hfields, _, h⟩ := h.of_bind
    simp only [gives_pure, Reading.map_parts, Reading.widen_parts, Reading.andMaybe_parts, Prod.mk.injEq] at h
    obtain ⟨⟨rfl, rfl⟩, rfl⟩ := h
    exact ⟨base, mid, Prod.ext rfl hmarker, hbase, fs, hfields, rfl⟩
  · rintro ⟨base, mid, hmarker, hbase, fs, hfields, rfl⟩
    refine (gives_expect.2 ⟨congrArg Prod.snd hmarker, hbase⟩).bind fun _ => hfields.bind fun _ => ?_
    simp [congrArg Prod.fst hmarker]

theorem isPath_of_path {expected : Expectation} {p : Path} {marked : Bool} (hts : Orderly ts)
    (h : Gives (path env expected ts) (p, marked) rest) :
    ∃ used, ts = used ++ rest ∧ IsPath used p marked := by
  obtain ⟨base, mid, hmarker, hbase, fs, hfields, rfl⟩ := gives_path.1 h
  rcases marker_cases ts with hnone | ⟨word, colon, more, rfl, hsome, hword, htext, hcolon⟩
  · rw [hnone, Prod.mk.injEq] at hmarker
    obtain ⟨rfl, rfl⟩ := hmarker
    obtain ⟨used, rfl, hfs⟩ := isFields_of_fields (orderly_cons.1 hts).2 hfields
    exact ⟨base :: used, rfl, .plain hbase hfs⟩
  · rw [hsome, Prod.mk.injEq] at hmarker
    obtain ⟨rfl, rfl⟩ := hmarker
    have hmid : Orderly ([word, colon, base] ++ mid) := hts
    obtain ⟨used, rfl, hfs⟩ := isFields_of_fields hmid.right hfields
    exact ⟨word :: colon :: base :: used, rfl, .marked hword htext hcolon hbase hfs⟩

theorem path_of_isPath {expected : Expectation} {used : List Token} {p : Path} {marked : Bool}
    (h : IsPath used p marked) (horderly : Orderly (used ++ rest)) (hdot : peek rest ≠ some (.punct .dot))
    (hmarks : ¬Marks rest) :
    Gives (path env expected (used ++ rest)) (p.rescope env.resolve, marked) rest := by
  rw [gives_path]
  cases h with
  | @plain base used fs scope hbase hfs =>
    refine ⟨base, used ++ rest, marker_of_not_marks ?_, hbase, fs, ?_, rfl⟩
    · cases hfs with
      | nil => exact hmarks
      | cons hpoint =>
        rintro ⟨colon, _, _, heq, hcolon, -⟩
        cases heq
        rw [hpoint] at hcolon
        cases hcolon
    · exact fields_of_isFields hfs (orderly_cons.1 horderly).2 hdot
  | @marked word colon base used fs scope hword htext hcolon hbase hfs =>
    obtain ⟨_, _, o⟩ := word
    obtain ⟨_, text, o'⟩ := colon
    subst hword htext hcolon
    obtain ⟨hhead, hnext⟩ := orderly_cons.1 (orderly_cons.1 horderly).2
    have hlike : base.isWordLike := by rw [hhead base (by simp) ⟨_, rfl⟩, hbase]; rfl
    refine ⟨base, used ++ rest, ?_, hbase, fs, fields_of_isFields hfs (orderly_cons.1 hnext).2 hdot, rfl⟩
    simp [marker, hlike]

theorem Marks.peek_eq (h : Marks ts) : peek ts = some (.punct .colon) := by
  obtain ⟨colon, t, more, rfl, hcolon, -⟩ := h
  rw [peek_cons, hcolon]

theorem path_of_ends {expected : Expectation} {used : List Token} {p : Path} {marked : Bool}
    (h : IsPath used p marked) (horderly : Orderly (used ++ rest)) (hends : Ends rest) :
    Gives (path env expected (used ++ rest)) (p.rescope env.resolve, marked) rest :=
  path_of_isPath h horderly (fun hdot => (hends _ hdot).1 rfl) fun hmarks => (hends _ hmarks.peek_eq).2.1 rfl

/-! ## Bounds -/

theorem isBound_of_bound {b : Bound} (hts : Orderly ts) (h : Gives (bound env ts) b rest) :
    ∃ used, ts = used ++ rest ∧ IsBound used b := by
  unfold bound at h
  split at h
  · obtain ⟨⟨p, marked⟩, _, hpath, _, h⟩ := h.of_bind
    simp only [gives_pure, Reading.map_parts] at h
    obtain ⟨rfl, rfl⟩ := h
    obtain ⟨used, hsplit, hname⟩ := isPath_of_path hts hpath
    exact ⟨used, hsplit, .name hname⟩
  · obtain ⟨l, _, hliteral, _, h⟩ := h.of_bind
    simp only [gives_pure, Reading.map_parts] at h
    obtain ⟨rfl, rfl⟩ := h
    obtain ⟨used, hsplit, hl⟩ := gives_literal.1 hliteral
    exact ⟨used, hsplit, .literal hl⟩

theorem peek_path {used : List Token} {p : Path} {marked : Bool} (h : IsPath used p marked) :
    peek (used ++ rest) = some .name := by
  cases h <;> simp_all [peek_cons]

theorem bound_of_isBound {used : List Token} {b : Bound} (h : IsBound used b) (horderly : Orderly (used ++ rest))
    (hends : peek rest ≠ some (.punct .dot) ∧ peek rest ≠ some (.punct .colon)) :
    Gives (bound env (used ++ rest)) b rest := by
  unfold bound
  cases h with
  | name hpath =>
    split
    · refine (path_of_isPath hpath horderly hends.1 fun hmarks => hends.2 hmarks.peek_eq).bind fun _ => ?_
      simp [Path.dotted, Path.segments, Path.rescope]
    · rename_i hname; exact (hname (peek_path hpath)).elim
  | literal hliteral =>
    split
    · rename_i hname; exact (peek_literal_ne hliteral rfl hname).elim
    · exact (gives_literal.2 ⟨_, rfl, hliteral⟩).bind fun _ => by simp

theorem peek_bound_ne {used : List Token} {b : Bound} (h : IsBound used b) :
    peek (used ++ rest) ≠ some (.punct .rparen) := by
  cases h with
  | name hpath => simp [peek_path hpath]
  | literal hliteral => exact peek_literal_ne hliteral rfl

theorem commaList_of_bounds {bs : List Bound} (hts : Orderly ts) (h : Gives (bounds env ts) bs rest) :
    ∃ used, ts = used ++ rest ∧ CommaList IsBound used bs ∧ bs.length ≤ 3 := by
  unfold bounds at h
  split at h
  · exact (not_gives_error h).elim
  · obtain ⟨args, _, hargs, _, h⟩ := h.of_bind
    split at h
    · rename_i hfew
      obtain ⟨rfl, rfl⟩ := gives_pure.1 h
      obtain ⟨used, hsplit, hlist⟩ := commaList_of_commaSeparated (fun _ _ _ => isBound_of_bound) _ hts hargs
      exact ⟨used, hsplit, hlist, hfew⟩
    · exact (not_gives_error h).elim

theorem bounds_of_commaList {used : List Token} {bs : List Bound} {close : Token} (h : CommaList IsBound used bs)
    (hfew : bs.length ≤ 3) (horderly : Orderly (used ++ close :: rest)) (hclose : close.kind = .punct .rparen) :
    Gives (bounds env (used ++ close :: rest)) bs (close :: rest) := by
  have hargs : Gives (commaSeparated (bound env) (used ++ close :: rest)) bs (close :: rest) :=
    commaSeparated_of_commaList (fun rest => peek rest ≠ some (.punct .dot) ∧ peek rest ≠ some (.punct .colon))
      (fun _ _ _ => bound_of_isBound) (fun t rest ht => by simp [peek_cons, ht]) h horderly
      (by simp [peek_cons, hclose]) (by simp [peek_cons, hclose])
  unfold bounds
  split
  · rename_i hparen; exact (peek_commaList_ne (fun _ _ _ => peek_bound_ne) h hparen).elim
  · exact hargs.bind fun _ => by simp [hfew]

end

end MailDialect.Reader
