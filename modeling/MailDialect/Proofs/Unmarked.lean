import MailDialect.Proofs.Grammar

/-!
# Tokens without markers

A marked path shows in its tokens as a colon before a name, and nothing else in a directive shows so:
behind the colon of a default or of a filter stands a literal. So tokens in which no colon stands before
a name hold no marked path (`Unmarked.not_isPath`), and the tokens of every operand without a marker are
of that kind, wherever they stand (`Settled`).
-/

namespace MailDialect

open Grammar

/-- No colon stands before a name. -/
def Unmarked (ts : List Token) : Prop := ts.IsChain fun a b => a.kind = .punct .colon → b.kind ≠ .name

/-- The tokens can stand before any tokens in which no colon stands before a name. -/
def Settled (ts : List Token) : Prop := ∀ us, Unmarked us → Unmarked (ts ++ us)

section
variable {ts us : List Token} {t : Token} {k : Token.Kind}

theorem unmarked_nil : Unmarked [] := List.isChain_nil

theorem Unmarked.not_isPath {used : List Token} {p : Path} (h : Unmarked ts) (hused : used <:+: ts) :
    ¬IsPath used p true := by
  have hpart : Unmarked used := h.infix hused
  intro hpath
  cases hpath with
  | marked _ _ hcolon hbase _ => exact (List.isChain_cons_cons.1 (List.isChain_cons_cons.1 hpart).2).1 hcolon hbase

theorem Settled.unmarked (h : Settled ts) : Unmarked ts := by
  simpa using h [] unmarked_nil

theorem settled_nil : Settled [] := fun _ h => h

theorem Settled.append (h : Settled ts) (h' : Settled us) : Settled (ts ++ us) := by
  intro vs hvs
  rw [List.append_assoc]
  exact h _ (h' vs hvs)

theorem Settled.cons (h : Settled ts) (ht : t.kind = k) (hk : k ≠ .punct .colon) : Settled (t :: ts) := by
  intro us hus
  refine List.isChain_cons.2 ⟨fun _ _ hcolon => ?_, h us hus⟩
  exact (hk (ht.symm.trans hcolon)).elim

theorem Settled.snoc (h : Settled ts) (ht : t.kind = k) (hk : k ≠ .punct .colon) : Settled (ts ++ [t]) :=
  h.append (settled_nil.cons ht hk)

/-- A colon may stand before what starts with no name. -/
theorem Settled.colon {colon : Token} (h : Settled (t :: ts)) (ht : t.kind ≠ .name) : Settled (colon :: t :: ts) := by
  intro us hus
  exact List.isChain_cons_cons.2 ⟨fun _ => ht, h us hus⟩

theorem settled_literal {l : Literal} (h : IsLiteral ts l) : Settled ts := by
  cases h with
  | negative => exact (settled_nil.cons rfl (by simp)).cons rfl (by simp)
  | _ => exact settled_nil.cons rfl (by simp)

theorem settled_literals {args : List Literal} (h : CommaList IsLiteral ts args) : Settled ts := by
  induction h with
  | one h => exact settled_literal h
  | more h hcomma _ ih => exact (settled_literal h).append (ih.cons hcomma (by simp))

/-- No literal starts with a name. -/
theorem starts_literals {args : List Literal} (h : CommaList IsLiteral ts args) :
    ∃ t us, ts = t :: us ∧ t.kind ≠ .name := by
  have hliteral : ∀ {ts l}, IsLiteral ts l → ∃ t us, ts = t :: us ∧ t.kind ≠ .name := by
    intro ts l h
    cases h <;> exact ⟨_, _, rfl, by simp⟩
  cases h with
  | one h => exact hliteral h
  | more h _ _ =>
    obtain ⟨t, us, rfl, ht⟩ := hliteral h
    exact ⟨t, _, rfl, ht⟩

theorem settled_filter {f : Filter} (h : IsFilter ts f) : Settled ts := by
  cases h with
  | bare hname => exact settled_nil.cons hname (by simp)
  | colon hname _ hargs =>
    obtain ⟨t, us, rfl, ht⟩ := starts_literals hargs
    exact ((settled_literals hargs).colon ht).cons hname (by simp)
  | emptyCall hname hopening hclosing =>
    exact ((settled_nil.cons hclosing (by simp)).cons hopening (by simp)).cons hname (by simp)
  | call hname hopening hargs hclosing =>
    have hcall := (settled_literals hargs).snoc hclosing (by simp)
    exact (hcall.cons hopening (by simp)).cons hname (by simp)

theorem settled_filters {fs : List Filter} (h : IsFilters ts fs) : Settled ts := by
  induction h with
  | nil => exact settled_nil
  | cons hbar hfilter _ ih => exact ((settled_filter hfilter).append ih).cons hbar (by simp)

/-- A path without a marker. -/
theorem settled_path {p : Path} (h : IsPath ts p false) : Settled ts := by
  have hfields : ∀ {ts fields}, IsFields ts fields → Settled ts := by
    intro ts fields h
    induction h with
    | nil => exact settled_nil
    | cons hpoint hfield _ ih =>
      refine (ih.cons rfl fun hcolon => ?_).cons hpoint (by simp)
      simp [hcolon, Token.Kind.isWord] at hfield
  cases h with
  | plain hbase h => exact (hfields h).cons hbase (by simp)

end

end MailDialect
