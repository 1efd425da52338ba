import MailDialect.Proofs.Reading

/-!
# The reader of conditions follows the grammar

The grammar groups connectives to the left; the reader collects them from left to right and hands
on what it has so far. Main statements: what is read as a condition is one
(`isExpr_of_condition`), and a condition is read as a whole up to a token that does not go on with
it (`condition_of_isExpr`).
-/

namespace MailDialect.Reader

open Grammar

variable {env : Env} {ts rest : List Token}

/-! ## One step -/

theorem gives_value_of_name (h : peek ts = some .name) {e : Expr} :
    Gives (value env ts) e rest ↔ ∃ p marked mid, Gives (path env .operand ts) (p, marked) mid ∧
      ∃ fs, Gives (filters env mid) fs rest ∧ e = applyFilters (.path p) fs := by
  unfold value
  split
  · cases h
  · split
    · constructor
      · intro h
        obtain ⟨⟨p, marked⟩, mid, hpath, _, h⟩ := h.of_bind
        obtain ⟨fs, _, hfilters, _, h⟩ := h.of_bind
        simp only [gives_pure, Reading.map_parts, Reading.andMaybe_parts] at h
        obtain ⟨rfl, rfl⟩ := h
        exact ⟨p, marked, mid, hpath, fs, hfilters, rfl⟩
      · rintro ⟨p, marked, mid, hpath, fs, hfilters, rfl⟩
        exact hpath.bind fun _ => hfilters.bind fun _ => by simp
    · rename_i hname; exact (hname h).elim

theorem gives_value_of_literal {kind : Token.Kind} (h : peek ts = some kind) (hkind : startsLiteral kind)
    {e : Expr} : Gives (value env ts) e rest ↔ ∃ l, Gives (literal env ts) l rest ∧ e = .literal l := by
  unfold value
  split
  · cases h; cases hkind
  · split
    · rename_i hname; rw [hname] at h; cases h; cases hkind
    · rw [if_pos (by rw [h]; exact hkind)]
      constructor
      · intro h
        obtain ⟨l, _, hliteral, _, h⟩ := h.of_bind
        simp only [gives_pure, Reading.map_parts] at h
        obtain ⟨rfl, rfl⟩ := h
        exact ⟨l, hliteral, rfl⟩
      · rintro ⟨l, hliteral, rfl⟩
        exact hliteral.bind fun _ => by simp

/-! ## Nothing runs long -/

/-- What the reader gives on `ts` is derived at the level. -/
def SoundAt {n : Nat} (level : Level) (ts : List Token) (o : Outcome Expr n) : Prop :=
  ∀ e rest, Orderly ts → Gives o e rest → ∃ used, ts = used ++ rest ∧ IsExpr level used e

/-- What the reader gives on `ts` after `left` is derived at the level together with `left`. -/
def SoundAfter {n : Nat} (level : Level) (left : Expr) (ts : List Token) (o : Outcome Expr n) : Prop :=
  ∀ e rest, Orderly ts → Gives o e rest → ∃ used, ts = used ++ rest ∧
    ∀ before, IsExpr level before left → IsExpr level (before ++ used) e

theorem SoundAt.collect {lower upper : Level} {o : Outcome Expr ts.length}
    {k : (first : Reading Expr ts.length) → Outcome Expr (first.rest.length + 1)}
    (hlift : ∀ {ts e}, IsExpr lower ts e → IsExpr upper ts e) (hfirst : SoundAt lower ts o)
    (hmore : ∀ first, SoundAfter upper first.value first.rest (k first)) :
    SoundAt upper ts (do let first ← o; let all ← k first; return first.andMaybe all) := by
  intro e rest hts h
  obtain ⟨a, mid, ho, below, h⟩ := h.of_bind
  obtain ⟨_, _, hall, _, h⟩ := h.of_bind
  simp only [gives_pure, Reading.andMaybe_parts] at h
  obtain ⟨rfl, rfl⟩ := h
  obtain ⟨used, rfl, ha⟩ := hfirst _ _ hts ho
  obtain ⟨used', hsplit, hgroup⟩ := hmore ⟨a, mid, below⟩ _ _ hts.right hall
  have hsplit : mid = used' ++ _ := hsplit
  rw [hsplit, ← List.append_assoc]
  exact ⟨used ++ used', rfl, hgroup _ (hlift ha)⟩

theorem SoundAfter.step {lower upper : Level} {left : Expr} {op : Connective} {word : Token}
    {o : Outcome Expr ts.length} {k : (right : Reading Expr ts.length) → Outcome Expr (right.rest.length + 1)}
    (hrule : ∀ {before used e}, IsExpr upper before left → IsExpr lower used e →
      IsExpr upper (before ++ word :: used) (.logical left op e)) (hright : SoundAt lower ts o)
    (hmore : ∀ right, SoundAfter upper (.logical left op right.value) right.rest (k right)) :
    SoundAfter upper left (word :: ts) (do
      let right ← o
      let all ← k right
      return ((right.andMaybe all).after.relax : Reading Expr ((word :: ts).length + 1))) := by
  intro e rest hts h
  obtain ⟨a, mid, ho, below, h⟩ := h.of_bind
  obtain ⟨_, _, hall, _, h⟩ := h.of_bind
  simp only [gives_pure, Reading.relax_parts, Reading.after_parts, Reading.andMaybe_parts] at h
  obtain ⟨rfl, rfl⟩ := h
  obtain ⟨used, rfl, ha⟩ := hright _ _ (orderly_cons.1 hts).2 ho
  obtain ⟨used', hsplit, hgroup⟩ := hmore ⟨a, mid, below⟩ _ _ (orderly_cons.1 hts).2.right hall
  have hsplit : mid = used' ++ _ := hsplit
  refine ⟨word :: (used ++ used'), by simp [hsplit], fun before hbefore => ?_⟩
  simpa using hgroup _ (hrule hbefore ha)

theorem SoundAfter.nothing {level : Level} {left : Expr} :
    SoundAfter level left ts (.ok (.nothing left ts)) := by
  intro e rest _ h
  simp only [gives_ok, Reading.nothing_parts] at h
  obtain ⟨rfl, rfl⟩ := h
  exact ⟨[], rfl, fun before hbefore => by simpa using hbefore⟩

theorem sound_comparison (hleft : SoundAt .value ts (value env ts))
    (hright : ∀ (left : Reading Expr ts.length) op text offset more,
      left.rest = ⟨.comparison op, text, offset⟩ :: more → SoundAt .value more (value env more)) :
    SoundAt .comparison ts (comparison env ts) := by
  intro e rest hts h
  rw [comparison] at h
  obtain ⟨a, mid, ho, below, h⟩ := h.of_bind
  obtain ⟨used, rfl, ha⟩ := hleft _ _ hts ho
  dsimp only at h
  split at h
  · obtain ⟨b, _, ho', _, h⟩ := h.of_bind
    simp only [gives_pure, Reading.map_parts, Reading.andAfter_parts] at h
    obtain ⟨rfl, rfl⟩ := h
    obtain ⟨used', rfl, hb⟩ := hright ⟨a, _, below⟩ _ _ _ _ rfl _ _ (orderly_cons.1 hts.right).2 ho'
    rw [← List.cons_append, ← List.append_assoc]
    exact ⟨_, rfl, .compare ha rfl hb⟩
  · simp only [gives_pure] at h
    obtain ⟨rfl, rfl⟩ := h
    exact ⟨used, rfl, .single ha⟩

theorem sound_path (h : peek ts = some .name) : SoundAt .value ts (value env ts) := by
  intro e rest hts he
  obtain ⟨p, marked, mid, hpath, fs, hfilters, rfl⟩ := (gives_value_of_name h).1 he
  obtain ⟨used, rfl, hp⟩ := isPath_of_path hts hpath
  obtain ⟨used', rfl, hfs⟩ := isFilters_of_filters hts.right hfilters
  cases fs with
  | nil => cases hfs; exact ⟨used, rfl, .path hp⟩
  | cons f fs => exact ⟨used ++ used', by simp, .filtered hp hfs (by simp)⟩

/-- What is read as a condition is one, and so for its parts. -/
theorem sound (env : Env) :
    (∀ ts, SoundAt .condition ts (condition env ts)) ∧
    (∀ left ts, SoundAfter .condition left ts (disjuncts env left ts)) ∧
    (∀ ts, SoundAt .conjunction ts (conjunction env ts)) ∧
    (∀ left ts, SoundAfter .conjunction left ts (conjuncts env left ts)) ∧
    (∀ ts, SoundAt .negation ts (negation env ts)) ∧
    (∀ ts, SoundAt .comparison ts (comparison env ts)) ∧
    ∀ ts, SoundAt .value ts (value env ts) := by
  apply condition.mutual_induct
  -- the two connectives: a first operand, then as many more as there are
  case case1 =>
    intro ts hfirst hmore
    rw [condition]
    exact hfirst.collect .disjunct hmore
  case case2 =>
    intro left text o ts hright hmore
    rw [disjuncts]
    exact .step (fun hleft he => .or hleft rfl he) hright hmore
  case case3 =>
    intro left ts hword
    rw [disjuncts]
    · exact .nothing
    · exact hword
  case case4 =>
    intro ts hfirst hmore
    rw [conjunction]
    exact hfirst.collect .conjunct hmore
  case case5 =>
    intro left text o ts hright hmore
    rw [conjuncts]
    exact .step (fun hleft he => .and hleft rfl he) hright hmore
  case case6 =>
    intro left ts hword
    rw [conjuncts]
    · exact .nothing
    · exact hword
  -- negations, comparisons and single values
  case case7 =>
    intro text o ts hinner e rest hts h
    rw [negation] at h
    obtain ⟨a, _, ho, _, h⟩ := h.of_bind
    simp only [gives_pure, Reading.map_parts, Reading.after_parts] at h
    obtain ⟨rfl, rfl⟩ := h
    obtain ⟨used, rfl, ha⟩ := hinner _ _ (orderly_cons.1 hts).2 ho
    exact ⟨_ :: used, rfl, .not rfl ha⟩
  case case8 =>
    intro ts hword hinner e rest hts h
    rw [negation] at h
    · obtain ⟨used, rfl, ha⟩ := hinner _ _ hts h
      exact ⟨used, rfl, .affirmed ha⟩
    · exact hword
  case case9 => exact fun ts hleft hright => sound_comparison hleft hright
  case case10 =>
    intro text o ts hinner e rest hts h
    rw [value] at h
    obtain ⟨a, _, ho, _, h⟩ := h.of_bind
    obtain ⟨close, _, hexpect, _, h⟩ := h.of_bind
    simp only [gives_pure, Reading.map_parts, Reading.after_parts, Reading.andThen_parts] at h
    obtain ⟨rfl, rfl⟩ := h
    obtain ⟨rfl, hclose⟩ := gives_expect.1 hexpect
    obtain ⟨used, rfl, ha⟩ := hinner _ _ (orderly_cons.1 hts).2 ho
    rw [List.append_cons]
    exact ⟨_ :: (used ++ [close]), rfl, .group rfl ha hclose⟩
  case case11 => exact fun ts _ hname => sound_path hname
  case case12 =>
    intro ts _ _ hstarts e rest _ h
    cases hpeek : peek ts with
    | none => rw [hpeek] at hstarts; cases hstarts
    | some kind =>
      obtain ⟨l, hliteral, rfl⟩ := (gives_value_of_literal hpeek (by simpa [hpeek] using hstarts)).1 h
      obtain ⟨used, rfl, hl⟩ := gives_literal.1 hliteral
      exact ⟨used, rfl, .literal hl⟩
  case case13 =>
    intro ts hparen hname hstarts e rest _ h
    unfold value at h
    split at h
    · exact (hparen _ _ _ rfl).elim
    · split at h
      · rename_i heq; exact (hname heq).elim
      · rw [if_neg hstarts] at h
        exact (not_gives_error h).elim

/-! ## Nothing stops short -/

/-- The token after a part of a condition does not go on with the part. -/
def EndsAt (level : Level) (rest : List Token) : Prop :=
  Stops rest ∧ match level with
    | .value => True
    | .comparison | .negation | .conjunction => ∀ op, peek rest ≠ some (.comparison op)
    | .condition => (∀ op, peek rest ≠ some (.comparison op)) ∧ peek rest ≠ some (.keyword .kwAnd)

/-- The reader of a level takes `ts` for `e` and leaves `rest`; a reader that collects goes on from
there. -/
def ReadsAt (level : Level) (env : Env) (ts : List Token) (e : Expr) (rest : List Token) : Prop :=
  match level with
  | .value => Gives (value env ts) e rest
  | .comparison => Gives (comparison env ts) e rest
  | .negation => Gives (negation env ts) e rest
  | .conjunction => ∀ all after, Gives (conjuncts env e rest) all after → Gives (conjunction env ts) all after
  | .condition => ∀ all after, Gives (disjuncts env e rest) all after → Gives (condition env ts) all after

theorem conjuncts_of_peek {left : Expr} (h : peek ts ≠ some (.keyword .kwAnd)) :
    Gives (conjuncts env left ts) left ts := by
  unfold conjuncts
  split
  · exact (h rfl).elim
  · simp

theorem disjuncts_of_peek {left : Expr} (h : peek ts ≠ some (.keyword .kwOr)) :
    Gives (disjuncts env left ts) left ts := by
  unfold disjuncts
  split
  · exact (h rfl).elim
  · simp

theorem negation_of_peek (h : peek ts ≠ some (.keyword .kwNot)) : negation env ts = comparison env ts := by
  unfold negation
  split
  · exact (h rfl).elim
  · rfl

theorem endsAt_cons {level : Level} {t : Token} (hstops : Stops (t :: rest))
    (hcompare : ∀ op, t.kind ≠ .comparison op) (hand : level = .condition → t.kind ≠ .keyword .kwAnd) :
    EndsAt level (t :: rest) := by
  refine ⟨hstops, ?_⟩
  cases level <;> simp_all [peek_cons]

/-- A comparison starts with no `not`. -/
theorem peek_comparison_ne {level : Level} {e : Expr} (h : IsExpr level ts e)
    (hlevel : level = .value ∨ level = .comparison) : peek (ts ++ rest) ≠ some (.keyword .kwNot) := by
  induction h generalizing rest with
  | path hpath => simp [peek_path hpath]
  | filtered hpath => simp [List.append_assoc, peek_path hpath]
  | literal hliteral => exact peek_literal_ne hliteral rfl
  | group hopening => simp [peek_cons, hopening]
  | single _ ih => exact ih (.inl rfl)
  | compare _ _ _ ih => rw [List.append_assoc]; exact ih (.inl rfl)
  | _ => simp at hlevel

theorem value_of_path {used used' : List Token} {p : Path} {marked : Bool} {fs : List Filter}
    (hpath : IsPath used p marked) (hfilters : IsFilters used' fs) (horderly : Orderly (used ++ (used' ++ rest)))
    (hstops : Stops rest) :
    Gives (value env (used ++ (used' ++ rest))) (applyFilters (.path (p.rescope env.resolve)) fs) rest :=
  (gives_value_of_name (peek_path hpath)).2 ⟨_, _, _,
    path_of_ends hpath horderly (ends_of_isFilters hfilters hstops), _,
    filters_of_isFilters hfilters horderly.right hstops, rfl⟩

/-- The readers of all levels take the tokens of a derivation. -/
theorem reads (env : Env) {level : Level} {ts : List Token} {e : Expr} (h : IsExpr level ts e) :
    ∀ rest, Orderly (ts ++ rest) → EndsAt level rest → ReadsAt level env (ts ++ rest) (e.rescope env.resolve) rest := by
  induction h with
  | path hpath => exact fun rest horderly hends => value_of_path hpath .nil horderly hends.1
  | @filtered used used' p marked fs hpath hfilters hne =>
    intro rest horderly hends
    rw [List.append_assoc] at horderly ⊢
    have hvalue : Gives (value env _) (applyFilters (.path (p.rescope env.resolve)) fs) rest :=
      value_of_path hpath hfilters horderly hends.1
    rwa [applyFilters, if_neg (by simpa using hne)] at hvalue
  | literal hliteral =>
    intro rest horderly hends
    obtain ⟨kind, hpeek, hkind⟩ := peek_literal hliteral
    exact (gives_value_of_literal hpeek hkind).2 ⟨_, gives_literal.2 ⟨_, rfl, hliteral⟩, rfl⟩
  | @group opening closing ts e hopening hinner hclosing ih =>
    intro rest horderly hends
    obtain ⟨_, text, o⟩ := opening
    subst hopening
    rw [List.cons_append, List.append_assoc, List.singleton_append] at horderly ⊢
    have hstops : Stops (closing :: rest) := ⟨.of_kind hclosing (by simp), by simp [peek_cons, hclosing]⟩
    have hcondition := ih (closing :: rest) (orderly_cons.1 horderly).2
      (endsAt_cons hstops (by simp [hclosing]) (by simp [hclosing])) _ _
      (disjuncts_of_peek (by simp [peek_cons, hclosing]))
    show Gives (value env _) _ _
    rw [value]
    exact hcondition.bind fun _ => (gives_expect.2 ⟨rfl, hclosing⟩).bind fun _ => by simp [Expr.rescope]
  | single h ih =>
    intro rest horderly hends
    show Gives (comparison env _) _ _
    rw [comparison]
    refine (ih rest horderly ⟨hends.1, trivial⟩).bind fun _ => ?_
    dsimp only
    split
    · exact (hends.2 _ rfl).elim
    · simp
  | @compare operator used used' op a b hleft hop hright ihl ihr =>
    intro rest horderly hends
    obtain ⟨_, text, o⟩ := operator
    subst hop
    rw [List.append_assoc, List.cons_append] at horderly ⊢
    show Gives (comparison env _) _ _
    rw [comparison]
    refine (ihl _ horderly ⟨.of_kind (by simp), trivial⟩).bind fun _ => ?_
    refine (ihr rest (orderly_cons.1 horderly.right).2 ⟨hends.1, trivial⟩).bind fun _ => ?_
    simp [Expr.rescope]
  | affirmed h ih =>
    intro rest horderly hends
    show Gives (negation env _) _ _
    rw [negation_of_peek (peek_comparison_ne h (.inr rfl))]
    exact ih rest horderly hends
  | @not word ts e hword hinner ih =>
    intro rest horderly hends
    obtain ⟨_, text, o⟩ := word
    subst hword
    show Gives (negation env _) _ _
    rw [List.cons_append, negation]
    exact (ih rest (orderly_cons.1 horderly).2 hends).bind fun _ => by simp [Expr.rescope]
  | conjunct h ih =>
    intro rest horderly hends all after hall
    rw [conjunction]
    exact (ih rest horderly hends).bind fun _ => hall.bind fun _ => by simp
  | @and word used used' a b hleft hword hright ihl ihr =>
    intro rest horderly hends all after hall
    obtain ⟨_, text, o⟩ := word
    subst hword
    rw [List.append_assoc, List.cons_append] at horderly ⊢
    refine ihl _ horderly (endsAt_cons (.of_kind (by simp)) (by simp) (by simp)) _ _ ?_
    rw [conjuncts]
    exact (ihr rest (orderly_cons.1 horderly.right).2 hends).bind fun _ => hall.bind fun _ => by simp
  | disjunct h ih =>
    intro rest horderly hends all after hall
    rw [condition]
    refine (ih rest horderly ⟨hends.1, hends.2.1⟩ _ _ (conjuncts_of_peek hends.2.2)).bind fun _ => ?_
    exact hall.bind fun _ => by simp
  | @or word used used' a b hleft hword hright ihl ihr =>
    intro rest horderly hends all after hall
    obtain ⟨_, text, o⟩ := word
    subst hword
    rw [List.append_assoc, List.cons_append] at horderly ⊢
    refine ihl _ horderly (endsAt_cons (.of_kind (by simp)) (by simp) (by simp)) _ _ ?_
    rw [disjuncts]
    refine (ihr rest (orderly_cons.1 horderly.right).2 ⟨hends.1, hends.2.1⟩ _ _
      (conjuncts_of_peek hends.2.2)).bind fun _ => ?_
    exact hall.bind fun _ => by simp

/-- **What is read as a condition is one.** -/
theorem isExpr_of_condition {e : Expr} (hts : Orderly ts) (h : Gives (condition env ts) e rest) :
    ∃ used, ts = used ++ rest ∧ IsExpr .condition used e :=
  (sound env).1 ts e rest hts h

/-- **A condition is read as a whole**, up to the closer of its tag. -/
theorem condition_of_isExpr {used : List Token} {e : Expr} {close : Token} (h : IsExpr .condition used e)
    (horderly : Orderly (used ++ close :: rest)) (hclose : close.kind = .closer .tag) :
    Gives (condition env (used ++ close :: rest)) (e.rescope env.resolve) (close :: rest) :=
  reads env h _ horderly (endsAt_cons (.of_kind (by simp [hclose])) (by simp [hclose]) (by simp [hclose])) _ _
    (disjuncts_of_peek (by simp [peek_cons, hclose]))

end MailDialect.Reader
