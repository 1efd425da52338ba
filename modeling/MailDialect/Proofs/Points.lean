import MailDialect.Proofs.Grammar

/-!
# Points between names

In the tokens of a directive a point stands behind a name or behind a property, and a property is
whatever stands behind a point (`pointed_head`). So there is no directive in whose tokens a keyword that
is no property stands before a point, whatever else there is before and behind it (`Stuck`).
-/

namespace MailDialect

open Grammar

/-- Every point stands behind a name or a property, and makes a property of the token behind it; the flag
tells whether a point may come first. -/
inductive Pointed : Bool → List Token → Prop
  | nil {able : Bool} : Pointed able []
  | point {point property : Token} {ts : List Token} (hpoint : point.kind = .punct .dot) (hmore : Pointed true ts) :
    Pointed true (point :: property :: ts)
  | other {able : Bool} {t : Token} {ts : List Token} (ht : t.kind ≠ .punct .dot)
    (hmore : Pointed (t.kind == .name) ts) : Pointed able (t :: ts)

/-- There is no point among the tokens. -/
def Pointless (ts : List Token) : Prop := ∀ t ∈ ts, t.kind ≠ .punct .dot

/-- The tokens can stand behind any tokens, and before any that do not start with a point. -/
def Smooth (ts : List Token) : Prop := ∀ able us, Pointed false us → Pointed able (ts ++ us)

/-- Behind the tokens, points are looked at as if the tokens were not there. -/
def Passes (ts : List Token) : Prop := ∀ able us, Pointed able (ts ++ us) → ∃ able', Pointed able' us

/-- A point among the tokens is out of place, whatever stands before and behind them. -/
def Stuck (ts : List Token) : Prop := ∀ able us, ¬Pointed able (ts ++ us)

section
variable {ts us : List Token} {t : Token}

theorem Pointed.relax (h : Pointed false ts) (able : Bool) : Pointed able ts := by
  cases h with
  | nil => exact .nil
  | other ht hmore => exact .other ht hmore

/-! ## Tokens of operands -/

theorem pointless_literal {l : Literal} (h : IsLiteral ts l) : Pointless ts := by
  cases h <;> simp [Pointless]

theorem pointless_literals {args : List Literal} (h : CommaList IsLiteral ts args) : Pointless ts := by
  induction h with
  | one h => exact pointless_literal h
  | more h hcomma _ ih =>
    exact List.forall_mem_append.2 ⟨pointless_literal h, List.forall_mem_cons.2 ⟨by simp [hcomma], ih⟩⟩

theorem pointless_filter {f : Filter} (h : IsFilter ts f) : Pointless ts := by
  cases h with
  | bare hname => simp [Pointless, hname]
  | emptyCall hname hopening hclosing => simp [Pointless, hname, hopening, hclosing]
  | colon hname hcolon hargs =>
    have hlist := pointless_literals hargs
    exact List.forall_mem_cons.2 ⟨by simp [hname], List.forall_mem_cons.2 ⟨by simp [hcolon], hlist⟩⟩
  | call hname hopening hargs hclosing =>
    have hlist := pointless_literals hargs
    refine List.forall_mem_cons.2 ⟨by simp [hname], List.forall_mem_cons.2 ⟨by simp [hopening], ?_⟩⟩
    exact List.forall_mem_append.2 ⟨hlist, by simp [hclosing]⟩

theorem pointless_filters {fs : List Filter} (h : IsFilters ts fs) : Pointless ts := by
  induction h with
  | nil => simp [Pointless]
  | cons hbar hfilter _ ih =>
    exact List.forall_mem_cons.2 ⟨by simp [hbar], List.forall_mem_append.2 ⟨pointless_filter hfilter, ih⟩⟩

/-! ## Tokens of directives -/

theorem smooth_nil : Smooth [] := fun able _ hus => hus.relax able

theorem Smooth.append (h : Smooth ts) (h' : Smooth us) : Smooth (ts ++ us) := by
  intro able vs hvs
  rw [List.append_assoc]
  exact h able _ (h' false vs hvs)

theorem Smooth.cons (h : Smooth ts) (ht : t.kind ≠ .punct .dot) : Smooth (t :: ts) :=
  fun _ us hus => .other ht (h _ us hus)

theorem Smooth.snoc (h : Smooth ts) (ht : t.kind ≠ .punct .dot) : Smooth (ts ++ [t]) :=
  h.append (smooth_nil.cons ht)

theorem Pointless.smooth (h : Pointless ts) : Smooth ts := by
  induction ts with
  | nil => exact smooth_nil
  | cons t ts ih =>
    obtain ⟨ht, hts⟩ := List.forall_mem_cons.1 h
    exact (ih hts).cons ht

theorem pointed_fields {fs : List Text} (h : IsFields ts fs) (hus : Pointed false us) : Pointed true (ts ++ us) := by
  induction h with
  | nil => exact hus.relax true
  | cons hpoint _ _ ih => exact .point hpoint ih

theorem smooth_path {p : Path} {marked : Bool} (h : IsPath ts p marked) : Smooth ts := by
  have hplain : ∀ {base : Token} {ts : List Token} {fs : List Text}, base.kind = .name → IsFields ts fs →
      Smooth (base :: ts) := by
    intro base ts fs hbase hfields able us hus
    refine .other (by simp [hbase]) ?_
    simpa [hbase] using pointed_fields hfields hus
  cases h with
  | plain hbase hfields => exact hplain hbase hfields
  | marked hmarker _ hcolon hbase hfields =>
    exact ((hplain hbase hfields).cons (by simp [hcolon])).cons (by simp [hmarker])

theorem smooth_expr {level : Level} {e : Expr} (h : IsExpr level ts e) : Smooth ts := by
  induction h with
  | path hpath => exact smooth_path hpath
  | filtered hpath hfilters => exact (smooth_path hpath).append (pointless_filters hfilters).smooth
  | literal hliteral => exact (pointless_literal hliteral).smooth
  | group hopening _ hclosing ih => exact (ih.snoc (by simp [hclosing])).cons (by simp [hopening])
  | single _ ih | affirmed _ ih | conjunct _ ih | disjunct _ ih => exact ih
  | compare _ hop _ ihl ihr => exact ihl.append (ihr.cons (by simp [hop]))
  | not hword _ ih => exact ih.cons (by simp [hword])
  | and _ hword _ ihl ihr | or _ hword _ ihl ihr => exact ihl.append (ihr.cons (by simp [hword]))

theorem smooth_loopSource {source : LoopSource} (h : IsLoopSource ts source) : Smooth ts := by
  cases h with
  | collection hpath hfilters => exact (smooth_path hpath).append (pointless_filters hfilters).smooth
  | range hword hopening hbounds _ hclosing =>
    have hbound : ∀ {ts b}, IsBound ts b → Smooth ts := by
      rintro ts b (h | h)
      · exact (pointless_literal h).smooth
      · exact smooth_path h
    have hlist : ∀ {ts bs}, CommaList IsBound ts bs → Smooth ts := by
      intro ts bs h
      induction h with
      | one h => exact hbound h
      | more h hcomma _ ih => exact (hbound h).append (ih.cons (by simp [hcomma]))
    exact (((hlist hbounds).snoc (by simp [hclosing])).cons (by simp [hopening])).cons (by simp [hword])

/-- **Points stand behind names and properties**, in every directive but an unsupported tag. -/
theorem pointed_head {d : Delim} {head : Head} (h : IsHead d ts head)
    (hsupported : ∀ name closing, head ≠ .unsupported name closing) : Pointed false ts := by
  have hsmooth : Smooth ts := by
    cases h with
    | var hpath hdefault hfilters =>
      have hpointless : ∀ {ts value}, IsDefault ts value → Pointless ts := by
        rintro _ _ (_ | hcolon) <;> simp_all [Pointless]
      exact ((smooth_path hpath).append (hpointless hdefault).smooth).append (pointless_filters hfilters).smooth
    | ifTag hword hc | elseif hword hc => exact (smooth_expr hc).cons (by simp [hword])
    | elseIf hword hsecond hc => exact ((smooth_expr hc).cons (by simp [hsecond])).cons (by simp [hword])
    | elseTag hword | endifTag hword | endforTag hword => exact smooth_nil.cons (by simp [hword])
    | forTag hword hname hsecond hsource =>
      exact (((smooth_loopSource hsource).cons (by simp [hsecond])).cons (by simp [hname])).cons (by simp [hword])
    | opening => exact (hsupported _ _ rfl).elim
    | closing => exact (hsupported _ _ rfl).elim
  simpa using hsmooth false [] .nil

/-! ## Points out of place -/

theorem Passes.append (h : Passes ts) (h' : Passes us) : Passes (ts ++ us) := by
  intro able vs hpointed
  rw [List.append_assoc] at hpointed
  obtain ⟨able', hpointed'⟩ := h able _ hpointed
  exact h' able' vs hpointed'

theorem passes_one (ht : t.kind ≠ .punct .dot) : Passes [t] := by
  intro able us hpointed
  cases hpointed with
  | point hpoint => exact (ht hpoint).elim
  | other _ hmore => exact ⟨_, hmore⟩

theorem Pointless.passes (h : Pointless ts) : Passes ts := by
  induction ts with
  | nil => exact fun able _ hpointed => ⟨able, hpointed⟩
  | cons t ts ih =>
    obtain ⟨ht, hts⟩ := List.forall_mem_cons.1 h
    exact (passes_one ht).append (ih hts)

theorem passes_fields {fs : List Text} (h : IsFields ts fs) : Passes ts := by
  induction h with
  | nil => exact fun able _ hpointed => ⟨able, hpointed⟩
  | cons hpoint _ _ ih =>
    intro able us hpointed
    cases hpointed with
    | point _ hmore => exact ih true us hmore
    | other hother => exact (hother hpoint).elim

/-- A keyword that is no property cannot have one. -/
theorem stuck_keyword {k : Keyword} {f : Text} {fs : List Text} (ht : t.kind = .keyword k)
    (h : IsFields ts (f :: fs)) : Stuck (t :: ts) := by
  intro able us hpointed
  cases h with
  | cons hpoint =>
    cases hpointed with
    | point hdot => simp [ht] at hdot
    | other _ hmore =>
      rw [ht] at hmore
      cases hmore with
      | other hother => exact hother hpoint

theorem Stuck.append (h : Stuck ts) (us : List Token) : Stuck (ts ++ us) := by
  intro able vs hpointed
  rw [List.append_assoc] at hpointed
  exact h able _ hpointed

theorem Passes.stuck (h : Passes ts) (h' : Stuck us) : Stuck (ts ++ us) := by
  intro able vs hpointed
  rw [List.append_assoc] at hpointed
  obtain ⟨able', hpointed'⟩ := h able _ hpointed
  exact h' able' vs hpointed'

end

end MailDialect
