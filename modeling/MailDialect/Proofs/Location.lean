import MailDialect.Proofs.Bracketing
import MailDialect.Proofs.Relocation

/-!
# Where reading fails

The tokens of a source come in directives, and a reader that has passed the opener of one cannot run
past its closer: the closer is no lexeme and does not start like a word, so nothing a reader skips is
one. Hence inside a directive there is always a token to blame, and the end of the input is only found
where a block is still open. Main statement: `located_ofTokens`.
-/

namespace MailDialect

/-! ## Places between tokens -/

/-- The tokens from a place on, which lies inside the directive it names or between directives. -/
inductive Layout : Option Delim → List Token → Prop
  | done : Layout none []
  | text {t : Token} {ts : List Token} (hkind : t.kind = .text) (hmore : Layout none ts) : Layout none (t :: ts)
  | opener {t : Token} {ts : List Token} {d : Delim} (hkind : t.kind = .opener d) (hmore : Layout (some d) ts) :
    Layout none (t :: ts)
  | body {t close : Token} {ts : List Token} (hkind : t.kind = .text) (hclose : close.kind = .closer .comment)
    (hmore : Layout (some .comment) (close :: ts)) : Layout (some .comment) (t :: close :: ts)
  | lexeme {t : Token} {ts : List Token} {d : Delim} (hd : d ≠ .comment) (hkind : t.kind.isLexeme)
    (hmore : Layout (some d) ts) : Layout (some d) (t :: ts)
  | closer {t : Token} {ts : List Token} {d : Delim} (hkind : t.kind = .closer d) (hword : t.isWordLike = false)
    (hmore : Layout none ts) : Layout (some d) (t :: ts)

theorem Delim.isWordLike_closer (d : Delim) (o : Nat) :
    Token.isWordLike ⟨.closer d, d.closer, o⟩ = false := by
  cases d <;> rfl

section
variable {d : Delim} {b : Bool} {offset : Nat} {text : Text} {ts inner : List Token}

theorem Lexes.layout (h : Lexes b offset text inner) (hd : d ≠ .comment) (hmore : Layout (some d) ts) :
    Layout (some d) (inner ++ ts) := by
  have hlexeme := h.isLexeme
  clear h
  induction inner with
  | nil => exact hmore
  | cons t inner ih =>
    obtain ⟨ht, hinner⟩ := List.forall_mem_cons.1 hlexeme
    exact .lexeme hd ht (ih hinner)

theorem Inside.layout (h : Inside d b offset text inner) (o : Nat) (hmore : Layout none ts) :
    Layout (some d) (inner ++ ⟨.closer d, d.closer, o⟩ :: ts) := by
  have hclose : Layout (some d) (⟨.closer d, d.closer, o⟩ :: ts) := .closer rfl (d.isWordLike_closer o) hmore
  cases d with
  | var => exact Lexes.layout h (by decide) hclose
  | tag => exact Lexes.layout h (by decide) hclose
  | comment =>
    simp only [Inside] at h
    subst h
    split
    · exact hclose
    · exact .body rfl rfl hclose

theorem Scans.layout (h : Scans offset text ts) : Layout none ts := by
  induction h with
  | nil => exact .done
  | text _ _ _ ih => exact .text rfl ih
  | directive _ hinside _ ih => exact .opener rfl (hinside.layout _ ih)

end

/-- `ts` are the tokens from a place of `all` on. -/
structure At (all : List Token) (place : Option Delim) (ts : List Token) : Prop where
  layout : Layout place ts
  suffix : ts <:+ all

namespace At

variable {all ts : List Token} {t : Token} {d : Delim} {place : Option Delim}

theorem mem (h : At all place (t :: ts)) : t ∈ all := h.suffix.subset List.mem_cons_self

theorem tail_suffix (h : At all place (t :: ts)) : ts <:+ all := (List.suffix_cons t ts).trans h.suffix

/-- A directive does not end before its closer. -/
theorem exists_cons (h : At all (some d) ts) : ∃ t rest, ts = t :: rest := by
  cases h.layout with
  | body => exact ⟨_, _, rfl⟩
  | lexeme => exact ⟨_, _, rfl⟩
  | closer => exact ⟨_, _, rfl⟩

theorem next (h : At all (some d) (t :: ts)) (hkind : t.kind.isLexeme) : At all (some d) ts := by
  refine ⟨?_, h.tail_suffix⟩
  cases h.layout with
  | body htext => rw [htext] at hkind; cases hkind
  | lexeme _ _ hmore => exact hmore
  | closer hclose => rw [hclose] at hkind; cases hkind

/-- What looks like a word or a number is not the closer. -/
theorem next_of_word (h : At all (some d) (t :: ts)) (hd : d ≠ .comment)
    (hword : (t.isWordLike || t.kind == .number) = true) : At all (some d) ts := by
  refine ⟨?_, h.tail_suffix⟩
  cases h.layout with
  | body => exact (hd rfl).elim
  | lexeme _ _ hmore => exact hmore
  | closer hclose hnot => simp [hclose, hnot] at hword

theorem closed {d' : Delim} (h : At all (some d) (t :: ts)) (hkind : t.kind = .closer d') : At all none ts := by
  refine ⟨?_, h.tail_suffix⟩
  cases h.layout with
  | body htext => rw [htext] at hkind; cases hkind
  | lexeme _ hlexeme => rw [hkind] at hlexeme; cases hlexeme
  | closer _ _ hmore => exact hmore

theorem opened (h : At all none (t :: ts)) (hkind : t.kind = .opener d) : At all (some d) ts := by
  refine ⟨?_, h.tail_suffix⟩
  cases h.layout with
  | text htext => rw [htext] at hkind; cases hkind
  | opener hopener hmore =>
    rw [hopener] at hkind
    cases hkind
    exact hmore

theorem text (h : At all none (t :: ts)) (hkind : t.kind = .text) : At all none ts := by
  refine ⟨?_, h.tail_suffix⟩
  cases h.layout with
  | text _ hmore => exact hmore
  | opener hopener => rw [hopener] at hkind; cases hkind

end At

/-! ## Errors at a place -/

/-- Whether reading scanned tokens can fail for want of this. -/
def Expectation.arises : Expectation → Bool
  | textOrDirective => false
  | closer .comment => false
  | _ => true

/-- An error is found at a token, or at the end of the input where a block is not closed. -/
inductive Located (source : Text) (all : List Token) : GrammarError → Prop
  | token {t : Token} {expected : Expectation} {found : Finding} (ht : t ∈ all) (hexpected : expected.arises)
    (hfound : found ≠ .endOfInput) : Located source all ⟨t.offset, expected, found⟩
  | unclosed {expected : Expectation} (hexpected : expected = .endif ∨ expected = .endfor) :
    Located source all ⟨Text.byteSize source, expected, .endOfInput⟩

theorem Finding.ofToken_ne (t : Token) : Finding.ofToken t ≠ .endOfInput := by
  unfold Finding.ofToken
  split <;> simp

theorem Finding.message_eq_iff {f : Finding} : f.message = "end of input" ↔ f = .endOfInput := by
  refine ⟨fun h => ?_, fun h => h ▸ rfl⟩
  have hchars := congrArg String.toList h
  cases f with
  | endOfInput => rfl
  | text => revert h; decide
  | string written => simp [message] at hchars
  | lexeme written => simp [message] at hchars
  | arguments count =>
    have hlast := congrArg List.getLast? hchars
    simp [message] at hlast

theorem Expectation.message_ne_of_arises {x : Expectation} (h : x.arises) :
    x.message ≠ "text or a directive" ∧ x.message ≠ "`#\x7d`" := by
  cases x with
  | textOrDirective => cases h
  | closer d =>
    cases d with
    | comment => cases h
    | var | tag => decide
  | _ => decide

theorem Token.offset_lt_stop {t : Token} (h : t.text ≠ []) : t.offset < t.stop := by
  obtain ⟨c, text, htext⟩ := List.exists_cons_of_ne_nil h
  have hc : 0 < c.utf8Size := c.utf8Size_pos
  simp only [Token.stop, htext, Text.byteSize_cons]
  omega

namespace Located

variable {source : Text} {all : List Token} {e : GrammarError}

theorem arises (h : Located source all e) : e.expected.arises := by
  cases h with
  | token _ hexpected => exact hexpected
  | unclosed hexpected => rcases hexpected with rfl | rfl <;> rfl

theorem exists_token (h : Located source all e) (hfound : e.found.message ≠ "end of input") :
    ∃ t ∈ all, t.offset = e.offset := by
  cases h with
  | @token t _ _ ht => exact ⟨t, ht, rfl⟩
  | unclosed => exact (hfound rfl).elim

/-- No token starts at the end of the input, so an error there is one of a block. -/
theorem endOfInput_iff (h : Located source all e) (hscans : Scans 0 source all) :
    e.found.message = "end of input" ↔ e.offset = Text.byteSize source ∧
      (e.expected.message = "`\x7b% endif %\x7d`" ∨ e.expected.message = "`\x7b% endfor %\x7d`") := by
  rw [Finding.message_eq_iff]
  cases h with
  | @token t expected found ht _ hfound =>
    obtain ⟨hne, hstands⟩ := hscans.stands [] rfl rfl t ht
    have hlt := Token.offset_lt_stop hne
    have hle : t.stop ≤ Text.byteSize source := hstands.stop_le
    refine ⟨fun h => (hfound h).elim, fun h => ?_⟩
    have hend : t.offset = Text.byteSize source := h.1
    omega
  | unclosed hexpected =>
    refine ⟨fun _ => ⟨rfl, ?_⟩, fun _ => rfl⟩
    rcases hexpected with rfl | rfl
    · exact .inl rfl
    · exact .inr rfl

end Located

namespace Reader

section
variable {env : Env} {all ts : List Token} {t : Token} {d : Delim} {place : Option Delim} {expected : Expectation}

theorem located_cons (h : At all place (t :: ts)) (hexpected : expected.arises) :
    Located env.source all (env.unexpected (t :: ts) expected) :=
  .token h.mem hexpected (Finding.ofToken_ne t)

theorem located_unexpected (h : At all (some d) ts) (hexpected : expected.arises) :
    Located env.source all (env.unexpected ts expected) := by
  obtain ⟨t, rest, rfl⟩ := h.exists_cons
  exact located_cons h hexpected

theorem located_tag (env : Env) (h : At all place (t :: ts)) (hexpected : expected.arises) :
    Located env.source all (env.unexpectedTag (t :: ts) expected) := by
  unfold Env.unexpectedTag
  split
  · rename_i heq
    obtain ⟨rfl, rfl⟩ := List.cons.inj heq
    exact .token h.mem hexpected (Finding.ofToken_ne _)
  · exact located_cons h hexpected

end

/-! ## Readers stay in their directive -/

/-- A reader ends at a place of the tokens, or fails with an error that is found there. -/
def Leads {α : Type} {n : Nat} (source : Text) (all : List Token) (place : Option Delim) (o : Outcome α n) : Prop :=
  match o with
  | .ok r => At all place r.rest
  | .error e => Located source all e

section
variable {source : Text} {all : List Token} {place place' : Option Delim} {α β : Type} {m n : Nat}

theorem leads_ok {r : Reading α n} (h : At all place r.rest) : Leads source all place (.ok r) := h

theorem leads_error {e : GrammarError} (h : Located source all e) :
    Leads source all place (.error e : Outcome α n) := h

theorem Leads.bind {o : Outcome α m} {k : Reading α m → Outcome β n} (h : Leads source all place o)
    (hk : ∀ r, At all place r.rest → Leads source all place' (k r)) : Leads source all place' (o >>= k) := by
  cases o with
  | error e => exact h
  | ok r => exact hk r h

end

section
variable {env : Env} {all ts : List Token} {d : Delim}

theorem leads_expect {kind : Token.Kind} {expected : Expectation} (hkind : kind.isLexeme)
    (hexpected : expected.arises) (h : At all (some d) ts) :
    Leads env.source all (some d) (expect env kind expected ts) := by
  unfold expect
  split
  · split
    · rename_i heq
      exact leads_ok (h.next (heq ▸ hkind))
    · exact leads_error (located_unexpected h hexpected)
  · exact leads_error (located_unexpected h hexpected)

theorem leads_closer (hd : (Expectation.closer d).arises) (h : At all (some d) ts) :
    Leads env.source all none (closer env d ts) := by
  unfold closer expect
  split
  · split
    · rename_i hkind
      exact leads_ok (h.closed hkind)
    · exact leads_error (located_unexpected h hd)
  · exact leads_error (located_unexpected h hd)

/-! ### Operands -/

theorem leads_literal (h : At all (some d) ts) : Leads env.source all (some d) (literal env ts) := by
  fun_cases literal env ts with
  | case1 => exact leads_ok (h.next rfl)
  | case2 => exact leads_ok (h.next rfl)
  | case3 => exact leads_ok (h.next rfl)
  | case4 => exact leads_ok (h.next rfl)
  | case5 => exact leads_ok ((h.next rfl).next rfl)
  | case6 ts hstring hnumber htrue hfalse hminus =>
    rw [literal.eq_6 env ts hstring hnumber htrue hfalse hminus]
    exact leads_error (located_unexpected h rfl)

theorem leads_commaSeparated {α : Type} {item : (ts : List Token) → Outcome α ts.length} {ts : List Token}
    (hitem : ∀ ts, At all (some d) ts → Leads env.source all (some d) (item ts)) (h : At all (some d) ts) :
    Leads env.source all (some d) (commaSeparated item ts) := by
  rw [commaSeparated]
  refine (hitem ts h).bind fun first hfirst => ?_
  split
  · rename_i text o rest heq
    have hshort := first.length_lt_of_rest_eq_cons heq
    rw [heq] at hfirst
    exact (leads_commaSeparated hitem (hfirst.next rfl)).bind fun more hmore => leads_ok hmore
  · exact leads_ok hfirst
termination_by ts.length

theorem leads_literals (h : At all (some d) ts) : Leads env.source all (some d) (literals env ts) :=
  leads_commaSeparated (fun _ => leads_literal) h

theorem leads_filter (h : At all (some d) ts) : Leads env.source all (some d) (filter env ts) := by
  unfold filter
  refine (leads_expect rfl rfl h).bind fun name hname => ?_
  split
  · rename_i heq
    rw [heq] at hname
    exact (leads_literals (hname.next rfl)).bind fun args hargs => leads_ok hargs
  · rename_i heq
    rw [heq] at hname
    exact leads_ok ((hname.next rfl).next rfl)
  · rename_i heq
    rw [heq] at hname
    refine (leads_literals (hname.next rfl)).bind fun args hargs => ?_
    exact (leads_expect rfl rfl hargs).bind fun close hclose => leads_ok hclose
  · exact leads_ok hname

theorem leads_filters (h : At all (some d) ts) : Leads env.source all (some d) (filters env ts) := by
  induction ts using filters.induct with
  | case1 text o more ih =>
    rw [filters]
    refine (leads_filter (h.next rfl)).bind fun first hfirst => ?_
    exact (ih first hfirst).bind fun fs hfs => leads_ok hfs
  | case2 ts hbar =>
    rw [filters.eq_2 env ts hbar]
    exact leads_ok h

theorem at_marker (h : At all (some d) ts) : At all (some d) (marker ts).2 := by
  fun_cases marker ts with
  | case1 => exact (h.next rfl).next rfl
  | case2 => exact h
  | case3 => exact h

theorem leads_fields (hd : d ≠ .comment) (h : At all (some d) ts) :
    Leads env.source all (some d) (fields env ts) := by
  induction ts using fields.induct with
  | case1 text o t more hword ih =>
    rw [fields, if_pos hword]
    exact (ih ((h.next rfl).next_of_word hd hword)).bind fun fs hfs => leads_ok hfs
  | case2 text o t more hword =>
    rw [fields, if_neg hword]
    exact leads_error (located_unexpected (h.next rfl) rfl)
  | case3 text o => exact leads_error (located_unexpected (h.next rfl) rfl)
  | case4 ts hpoint hlast =>
    rw [fields.eq_3 env ts hpoint hlast]
    exact leads_ok h

theorem leads_path {expected : Expectation} (hd : d ≠ .comment) (hexpected : expected.arises)
    (h : At all (some d) ts) : Leads env.source all (some d) (path env expected ts) := by
  refine (leads_expect rfl hexpected (at_marker h)).bind fun base hbase => ?_
  exact (leads_fields hd hbase).bind fun fs hfs => leads_ok hfs

theorem leads_bound (hd : d ≠ .comment) (h : At all (some d) ts) :
    Leads env.source all (some d) (bound env ts) := by
  unfold bound
  split
  · exact (leads_path hd rfl h).bind fun p hp => leads_ok hp
  · exact (leads_literal h).bind fun l hl => leads_ok hl

theorem leads_bounds (hd : d ≠ .comment) (h : At all (some d) ts) :
    Leads env.source all (some d) (bounds env ts) := by
  unfold bounds
  split
  · exact leads_error (located_unexpected h rfl)
  · refine (leads_commaSeparated (fun _ => leads_bound hd) h).bind fun args hargs => ?_
    split
    · exact leads_ok hargs
    · -- the first bound is to blame for all of them
      obtain ⟨t, rest, rfl⟩ := h.exists_cons
      exact leads_error (.token h.mem rfl (by simp))

/-! ### Conditions -/

theorem leads_comparison (hleft : At all (some d) ts → Leads env.source all (some d) (value env ts))
    (hright : ∀ (left : Reading Expr ts.length) op text o more, left.rest = ⟨.comparison op, text, o⟩ :: more →
      At all (some d) more → Leads env.source all (some d) (value env more)) (h : At all (some d) ts) :
    Leads env.source all (some d) (comparison env ts) := by
  rw [comparison]
  refine (hleft h).bind fun left hrest => ?_
  split
  · rename_i op text o more heq
    rw [heq] at hrest
    exact (hright left op text o more heq (hrest.next rfl)).bind fun right hafter => leads_ok hafter
  · exact leads_ok hrest

theorem leads_operand (hd : d ≠ .comment) (hparen : ∀ text o rest, ts = ⟨.punct .lparen, text, o⟩ :: rest → False)
    (h : At all (some d) ts) : Leads env.source all (some d) (value env ts) := by
  rw [value.eq_2 env ts hparen]
  split
  · refine (leads_path hd rfl h).bind fun p hp => ?_
    exact (leads_filters hp).bind fun fs hfs => leads_ok hfs
  · split
    · exact (leads_literal h).bind fun l hl => leads_ok hl
    · exact leads_error (located_unexpected h rfl)

/-- A condition and each of its parts stay in the tag. -/
theorem leads_conditions (hd : d ≠ .comment) :
    (∀ ts, At all (some d) ts → Leads env.source all (some d) (condition env ts)) ∧
    (∀ left ts, At all (some d) ts → Leads env.source all (some d) (disjuncts env left ts)) ∧
    (∀ ts, At all (some d) ts → Leads env.source all (some d) (conjunction env ts)) ∧
    (∀ left ts, At all (some d) ts → Leads env.source all (some d) (conjuncts env left ts)) ∧
    (∀ ts, At all (some d) ts → Leads env.source all (some d) (negation env ts)) ∧
    (∀ ts, At all (some d) ts → Leads env.source all (some d) (comparison env ts)) ∧
    ∀ ts, At all (some d) ts → Leads env.source all (some d) (value env ts) := by
  apply condition.mutual_induct
  case case1 =>
    intro ts hfirst hmore h
    rw [condition]
    refine (hfirst h).bind fun first hrest => ?_
    exact (hmore first hrest).bind fun e he => leads_ok he
  case case2 =>
    intro left text o ts hright hmore h
    rw [disjuncts]
    refine (hright (h.next rfl)).bind fun right hrest => ?_
    exact (hmore right hrest).bind fun e he => leads_ok he
  case case3 =>
    intro left ts hword h
    rw [disjuncts.eq_2 env left ts hword]
    exact leads_ok h
  case case4 =>
    intro ts hfirst hmore h
    rw [conjunction]
    refine (hfirst h).bind fun first hrest => ?_
    exact (hmore first hrest).bind fun e he => leads_ok he
  case case5 =>
    intro left text o ts hright hmore h
    rw [conjuncts]
    refine (hright (h.next rfl)).bind fun right hrest => ?_
    exact (hmore right hrest).bind fun e he => leads_ok he
  case case6 =>
    intro left ts hword h
    rw [conjuncts.eq_2 env left ts hword]
    exact leads_ok h
  case case7 =>
    intro text o ts hinner h
    rw [negation]
    exact (hinner (h.next rfl)).bind fun e he => leads_ok he
  case case8 =>
    intro ts hword hinner h
    rw [negation.eq_2 env ts hword]
    exact hinner h
  case case9 => exact fun ts hleft hright h => leads_comparison hleft hright h
  case case10 =>
    intro text o ts hinner h
    rw [value]
    refine (hinner (h.next rfl)).bind fun e he => ?_
    exact (leads_expect rfl rfl he).bind fun close hclose => leads_ok hclose
  case case11 => exact fun ts hparen _ h => leads_operand hd hparen h
  case case12 => exact fun ts hparen _ _ h => leads_operand hd hparen h
  case case13 => exact fun ts hparen _ _ h => leads_operand hd hparen h

/-! ### Single directives -/

/-- The body of a comment is one text at most, so its closer is where it is looked for. -/
theorem at_skipText (h : At all (some .comment) ts) :
    At all (some .comment) (skipText ts) ∧ peek (skipText ts) = some (.closer .comment) := by
  obtain ⟨hlayout, hsuffix⟩ := h
  cases hlayout with
  | @body t close ts htext hclose hmore =>
    obtain ⟨_, raw, o⟩ := t
    subst htext
    exact ⟨⟨hmore, (List.suffix_cons _ _).trans hsuffix⟩, congrArg some hclose⟩
  | lexeme hd => exact (hd rfl).elim
  | @closer t ts _ hclose hword hmore =>
    obtain ⟨_, raw, o⟩ := t
    subst hclose
    exact ⟨⟨.closer rfl hword hmore, hsuffix⟩, rfl⟩

theorem leads_comment (offset : Nat) (h : At all (some .comment) ts) :
    Leads env.source all none (comment env offset ts) := by
  obtain ⟨hskip, hpeek⟩ := at_skipText h
  obtain ⟨t, rest, heq⟩ := hskip.exists_cons
  rw [heq] at hskip hpeek
  have hkind : t.kind = .closer .comment := Option.some.inj hpeek
  obtain ⟨below, hread⟩ : Gives (closer env .comment (skipText ts)) t rest := gives_expect.2 ⟨heq, hkind⟩
  unfold comment
  rw [hread]
  exact leads_ok (hskip.closed hkind)

theorem leads_defaultValue (h : At all (some d) ts) : Leads env.source all (some d) (defaultValue env ts) := by
  fun_cases defaultValue env ts with
  | case1 => exact leads_ok ((h.next rfl).next rfl)
  | case2 text o rest hstring =>
    rw [defaultValue.eq_2 env text o rest hstring]
    exact leads_error (located_unexpected (h.next rfl) rfl)
  | case3 ts hstring hcolon =>
    rw [defaultValue.eq_3 env ts hstring hcolon]
    exact leads_ok h

theorem leads_var (offset : Nat) (h : At all (some .var) ts) : Leads env.source all none (var env offset ts) := by
  refine (leads_path (by decide) rfl h).bind fun p hp => ?_
  refine (leads_defaultValue hp).bind fun value hvalue => ?_
  refine (leads_filters hvalue).bind fun fs hfs => ?_
  exact (leads_closer rfl hfs).bind fun close hclose => leads_ok hclose

/-- Skipping the arguments of a tag stops at its closer. -/
theorem at_skipArguments (h : At all (some .tag) ts) : At all (some .tag) (skipArguments ts) := by
  obtain ⟨hlayout, hsuffix⟩ := h
  refine ⟨?_, (List.dropWhile_suffix _).trans hsuffix⟩
  clear hsuffix
  induction ts with
  | nil => cases hlayout
  | cons t ts ih =>
    rw [skipArguments, List.dropWhile_cons]
    cases hlayout with
    | lexeme _ hkind hmore =>
      have hskip : (t.kind != .closer .tag) = true := by
        rw [bne_iff_ne]
        intro heq
        rw [heq] at hkind
        cases hkind
      rw [if_pos hskip]
      exact ih hmore
    | closer hkind hword hmore =>
      rw [if_neg (by simp [hkind])]
      exact .closer hkind hword hmore

theorem leads_closeAfterArguments (h : At all (some .tag) ts) :
    Leads env.source all none (closeAfterArguments env ts) :=
  (leads_closer rfl (at_skipArguments h)).bind fun _ hclose => leads_ok hclose

theorem leads_unsupported (offset : Nat) (h : At all (some .tag) ts) :
    Leads env.source all none (unsupported env offset ts) := by
  refine (leads_expect rfl rfl h).bind fun name hname => ?_
  split
  · exact leads_error (located_unexpected h rfl)
  · exact (leads_closeAfterArguments hname).bind fun close hclose => leads_ok hclose

theorem leads_loopSource (h : At all (some .tag) ts) : Leads env.source all (some .tag) (loopSource env ts) := by
  fun_cases loopSource env ts with
  | case1 text o rest =>
    refine (leads_expect rfl rfl (h.next rfl)).bind fun opening hopening => ?_
    refine (leads_bounds (by decide) hopening).bind fun args hargs => ?_
    exact (leads_expect rfl rfl hargs).bind fun close hclose => leads_ok hclose
  | case2 ts hrange =>
    rw [loopSource.eq_2 env ts hrange]
    refine (leads_path (by decide) rfl h).bind fun p hp => ?_
    exact (leads_filters hp).bind fun fs hfs => leads_ok hfs

/-! ### Ends of blocks -/

theorem leads_endifAfterElse (h : At all none ts) : Leads env.source all none (endifAfterElse env ts) := by
  fun_cases endifAfterElse env ts with
  | case1 text o text' o' rest =>
    have hrest := (h.opened rfl).next rfl
    exact (leads_closer rfl hrest).bind fun close hclose => leads_ok hclose
  | case2 => exact leads_error (located_tag env h rfl)
  | case3 => exact leads_error (located_tag env h rfl)
  | case4 => exact leads_error (.unclosed (.inl rfl))
  | case5 ts hendif helseif helse hnil =>
    rw [endifAfterElse.eq_5 env ts hendif helseif helse hnil]
    obtain ⟨t, rest, rfl⟩ := List.exists_cons_of_ne_nil hnil
    exact leads_error (located_tag env h rfl)

theorem leads_endfor (h : At all none ts) : Leads env.source all none (endfor env ts) := by
  fun_cases endfor env ts with
  | case1 text o text' o' rest =>
    have hrest := (h.opened rfl).next rfl
    exact (leads_closer rfl hrest).bind fun close hclose => leads_ok hclose
  | case2 ts hend =>
    rw [endfor.eq_2 env ts hend]
    cases ts with
    | nil => exact leads_error (.unclosed (.inr rfl))
    | cons t ts => exact leads_error (located_tag env h rfl)

end

/-! ## Blocks -/

/-- As `Leads`, for a reader that may find no node. -/
def LeadsMaybe {n : Nat} (source : Text) (all : List Token)
    (found : Except GrammarError (Option (Reading Node n))) : Prop :=
  match found with
  | .ok none => True
  | .ok (some r) => At all none r.rest
  | .error e => Located source all e

theorem Leads.maybe {α : Type} {m n : Nat} {source : Text} {all : List Token} {o : Outcome α m}
    {f : Reading α m → Reading Node n} (h : Leads source all none o) (hf : ∀ r, (f r).rest = r.rest) :
    LeadsMaybe source all (do let r ← o; return some (f r)) := by
  cases o with
  | error e => exact h
  | ok r =>
    show At all none (f r).rest
    rw [hf r]
    exact h

section
variable {all ts : List Token} {env : Env} {offset : Nat}

theorem leads_nodes_step (hfirst : At all none ts → LeadsMaybe env.source all (node env ts))
    (hmore : ∀ first : Reading Node ts.length, At all none first.rest →
      Leads env.source all none (nodes env first.rest)) (h : At all none ts) :
    Leads env.source all none (nodes env ts) := by
  rw [nodes]
  generalize hnode : node env ts = found
  have hfound := hfirst h
  rw [hnode] at hfound
  cases found with
  | error e => exact hfound
  | ok found =>
    cases found with
    | none => exact leads_ok h
    | some first => exact (hmore first hfound).bind fun more hrest => leads_ok hrest

/-- Both tags with a condition: the condition, the closer, the body and what follows it. -/
theorem leads_clause {α : Type} (make : Expr → Span → List Node → Alternative → α)
    (hbody : ∀ (c : Reading Expr ts.length) (close : Reading Token c.rest.length), At all none close.rest →
      Leads env.source all none (nodes env close.rest))
    (hmore : ∀ (c : Reading Expr ts.length) (close : Reading Token c.rest.length)
      (body : Reading (List Node) (close.rest.length + 1)), At all none body.rest →
      Leads env.source all none (alternative env body.rest)) (h : At all (some .tag) ts) :
    Leads env.source all none
      (do
        let c ← condition env ts
        let close ← closer env .tag c.rest
        let body ← nodes env close.rest
        let more ← alternative env body.rest
        return (c.andThen (close.andMaybe (body.andThen more))).map
          (make c.value (env.span offset close.value) body.value)) := by
  refine ((leads_conditions (by decide)).1 ts h).bind fun c hc => ?_
  refine (leads_closer rfl hc).bind fun close hclose => ?_
  refine (hbody c close hclose).bind fun body hrest => ?_
  exact (hmore c close body hrest).bind fun more hafter => leads_ok hafter

theorem leads_forBlock
    (hbody : ∀ (name : Reading Token ts.length) (kwIn : Reading Token name.rest.length)
      (source : Reading LoopSource kwIn.rest.length) (close : Reading Token source.rest.length),
      At all none close.rest → Leads env.source all none (nodes (env.enterLoop name.value.text) close.rest))
    (h : At all (some .tag) ts) : Leads env.source all none (forBlock env offset ts) := by
  rw [forBlock]
  refine (leads_expect rfl rfl h).bind fun name hname => ?_
  refine (leads_expect rfl rfl hname).bind fun kwIn hin => ?_
  refine (leads_loopSource hin).bind fun source hsource => ?_
  refine (leads_closer rfl hsource).bind fun close hclose => ?_
  refine (hbody name kwIn source close hclose).bind fun body hrest => ?_
  exact (leads_endfor hrest).bind fun done hdone => leads_ok hdone

theorem leads_tag {text : Text} (hif : ∀ text o rest, ts = ⟨.keyword .kwIf, text, o⟩ :: rest → False)
    (hfor : ∀ text o rest, ts = ⟨.keyword .kwFor, text, o⟩ :: rest → False)
    (h : At all none (⟨.opener .tag, text, offset⟩ :: ts)) :
    LeadsMaybe env.source all (node env (⟨.opener .tag, text, offset⟩ :: ts)) := by
  have hinside := h.opened rfl
  have hlocated : Located env.source all (env.unexpected ts .tagName) := located_unexpected hinside rfl
  rw [node.eq_7 env text offset ts hif hfor]
  split
  · exact (leads_unsupported offset hinside).maybe fun _ => rfl
  · split
    · trivial
    · exact hlocated

theorem lead_blocks (all : List Token) :
    (∀ env ts, At all none ts → Leads env.source all none (nodes env ts)) ∧
    (∀ env ts, At all none ts → LeadsMaybe env.source all (node env ts)) ∧
    (∀ env offset ts, At all (some .tag) ts → Leads env.source all none (forBlock env offset ts)) ∧
    (∀ env offset ts, At all (some .tag) ts → Leads env.source all none (ifBlock env offset ts)) ∧
    (∀ env ts, At all none ts → Leads env.source all none (alternative env ts)) ∧
    ∀ env offset ts, At all (some .tag) ts → Leads env.source all none (elseif env offset ts) := by
  apply nodes.mutual_induct
  -- lists of nodes, then the blocks behind their first tags
  case case1 => exact fun env ts hfirst hmore h => leads_nodes_step hfirst hmore h
  case case12 => exact fun env offset ts hbody h => leads_forBlock hbody h
  case case13 =>
    intro env offset ts hbody hmore h
    rw [ifBlock]
    exact leads_clause Node.ifBlock hbody hmore h
  case case20 =>
    intro env offset ts hbody hmore h
    rw [elseif]
    exact leads_clause Alternative.elseif hbody hmore h
  -- single nodes
  case case2 =>
    intro env h
    rw [node]
    trivial
  case case3 =>
    intro env raw o ts h
    rw [node]
    exact h.text rfl
  case case4 =>
    intro env text o ts h
    rw [node]
    exact (leads_comment o (h.opened rfl)).maybe fun _ => rfl
  case case5 =>
    intro env text o ts h
    rw [node]
    exact (leads_var o (h.opened rfl)).maybe fun _ => rfl
  case case6 =>
    intro env text o text' o' ts hblock h
    rw [node]
    exact (hblock ((h.opened rfl).next rfl)).maybe fun _ => rfl
  case case7 =>
    intro env text o text' o' ts hblock h
    rw [node]
    exact (hblock ((h.opened rfl).next rfl)).maybe fun _ => rfl
  case case8 => exact fun env text o ts hif hfor _ h => leads_tag hif hfor h
  case case9 => exact fun env text o ts hif hfor _ _ h => leads_tag hif hfor h
  case case10 => exact fun env text o ts hif hfor _ _ h => leads_tag hif hfor h
  case case11 =>
    -- between directives there is nothing else to find
    intro env ts hnil htext hcomment hvar _ _ htag h
    cases h.layout with
    | done => exact (hnil rfl).elim
    | @text t _ hkind =>
      obtain ⟨_, raw, o⟩ := t
      subst hkind
      exact (htext _ _ _ rfl).elim
    | @opener t _ d hkind =>
      obtain ⟨_, raw, o⟩ := t
      subst hkind
      cases d with
      | var => exact (hvar _ _ _ rfl).elim
      | tag => exact (htag _ _ _ rfl).elim
      | comment => exact (hcomment _ _ _ rfl).elim
  -- what follows a branch
  case case14 =>
    intro env text o text' o' ts hclause h
    rw [alternative]
    exact (hclause ((h.opened rfl).next rfl)).bind fun clause hrest => leads_ok hrest
  case case15 =>
    intro env text o text' o' text'' o'' ts hclause h
    rw [alternative]
    exact (hclause (((h.opened rfl).next rfl).next rfl)).bind fun clause hrest => leads_ok hrest
  case case16 =>
    intro env text o text' o' ts hif hbody h
    rw [alternative.eq_3 env _ _ _ _ ts hif]
    refine (leads_closer rfl ((h.opened rfl).next rfl)).bind fun close hclose => ?_
    refine (hbody close hclose).bind fun body hrest => ?_
    exact (leads_endifAfterElse hrest).bind fun done hdone => leads_ok hdone
  case case17 =>
    intro env text o text' o' ts h
    rw [alternative]
    exact (leads_closer rfl ((h.opened rfl).next rfl)).bind fun close hclose => leads_ok hclose
  case case18 =>
    intro env h
    rw [alternative]
    exact leads_error (.unclosed (.inl rfl))
  case case19 =>
    intro env ts helseif helseIf helse hendif hnil h
    rw [alternative.eq_6 env ts helseif helseIf helse hendif hnil]
    obtain ⟨t, rest, rfl⟩ := List.exists_cons_of_ne_nil hnil
    exact leads_error (located_tag env h rfl)

end

end Reader

open Reader in
/-- **A template that does not read has its error at a token**, or at the end of the input where a
block is open. -/
theorem located_ofTokens {source ns : Text} {ts : List Token} {e : GrammarError} (hlayout : Layout none ts)
    (h : Template.ofTokens source ts ns = .error e) : Located source ts e := by
  have hnodes := (lead_blocks ts).1 ⟨source, ns, []⟩ ts ⟨hlayout, List.suffix_rfl⟩
  unfold Template.ofTokens at h
  dsimp only at h
  cases hread : nodes ⟨source, ns, []⟩ ts with
  | error found =>
    rw [hread] at h hnodes
    cases h
    exact hnodes
  | ok all =>
    rw [hread] at h hnodes
    obtain ⟨value, rest, below⟩ := all
    cases rest with
    | nil => cases h
    | cons t rest =>
      dsimp only [bind, Except.bind] at h
      split at h
      · cases h
        exact located_tag ⟨source, ns, []⟩ hnodes rfl
      · cases h
        exact located_tag ⟨source, ns, []⟩ hnodes rfl

end MailDialect
