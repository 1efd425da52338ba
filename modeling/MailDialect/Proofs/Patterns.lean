import MailDialect.Preview.Pattern
import MailDialect.Proofs.Scan

/-!
# What patterns match

The ways of a pattern to match are exactly the texts it accepts at the front of a text
(`Pattern.exists_way_iff`), and the first of them is the one it prefers (`Pattern.Prefers`). So a search
can be followed from left to right: a match is taken and what it covers is skipped
(`Pattern.search_of_prefers`), and where no opening delimiter stands a pattern that starts with one finds
nothing (`Pattern.search_of_openerFree`). A pattern that ends with a closing delimiter looks no further than
the first one (`Pattern.ways_closed`).
-/

namespace MailDialect

namespace Pattern

variable {γ : Type} {p : Char → Bool} {a b : Pattern γ} {text used rest mid : Text} {cs ds : List (γ × Text)}

/-! ## Accepted texts -/

/-- The texts that a pattern matches as a whole. -/
def Accepts : Pattern γ → Text → Prop
  | empty, text => text = []
  | one p, text => ∃ c, p c ∧ text = [c]
  | many p, text => ∀ c ∈ text, p c
  | seq first second, text => ∃ x y, text = x ++ y ∧ first.Accepts x ∧ second.Accepts y
  | optional inner, text => inner.Accepts text ∨ text = []
  | either first second, text => first.Accepts text ∨ second.Accepts text
  | capture _ inner, text => inner.Accepts text

@[simp] theorem accepts_literal : (literal text : Pattern γ).Accepts used ↔ used = text := by
  induction text generalizing used with
  | nil => rfl
  | cons c text ih =>
    simp only [literal_cons, Accepts, ih, beq_iff_eq]
    constructor
    · rintro ⟨_, _, rfl, ⟨_, rfl, rfl⟩, rfl⟩; rfl
    · rintro rfl; exact ⟨[c], text, rfl, ⟨c, rfl, rfl⟩, rfl⟩

@[simp] theorem accepts_oneOrMore : (oneOrMore p : Pattern γ).Accepts used ↔ used ≠ [] ∧ ∀ c ∈ used, p c := by
  simp only [oneOrMore, Accepts]
  constructor
  · rintro ⟨_, run, rfl, ⟨c, hc, rfl⟩, hrun⟩
    exact ⟨by simp, List.forall_mem_cons.2 ⟨hc, hrun⟩⟩
  · rintro ⟨hne, hused⟩
    obtain ⟨c, run, rfl⟩ := List.exists_cons_of_ne_nil hne
    obtain ⟨hc, hrun⟩ := List.forall_mem_cons.1 hused
    exact ⟨[c], run, rfl, ⟨c, hc, rfl⟩, hrun⟩

theorem mem_runs {shorter : List Text} :
    rest ∈ runs p shorter text ↔ (∃ run, text = run ++ rest ∧ ∀ c ∈ run, p c) ∨ rest ∈ shorter := by
  induction text generalizing shorter with
  | nil =>
    simp only [runs, List.mem_cons, List.nil_eq_append_iff]
    refine or_congr_left ⟨?_, ?_⟩
    · rintro rfl; exact ⟨[], by simp⟩
    · rintro ⟨_, ⟨-, rfl⟩, -⟩; rfl
  | cons c text ih =>
    -- the run is empty, or it takes `c` and goes on in `text`
    have hsplit : (∃ run, c :: text = run ++ rest ∧ ∀ x ∈ run, p x) ↔
        rest = c :: text ∨ p c ∧ ∃ run, text = run ++ rest ∧ ∀ x ∈ run, p x := by
      constructor
      · rintro ⟨_ | ⟨x, run⟩, hrun, hall⟩
        · exact .inl hrun.symm
        · obtain ⟨rfl, rfl⟩ := List.cons.inj hrun
          obtain ⟨hc, hall⟩ := List.forall_mem_cons.1 hall
          exact .inr ⟨hc, run, rfl, hall⟩
      · rintro (rfl | ⟨hc, run, rfl, hall⟩)
        · exact ⟨[], by simp⟩
        · exact ⟨c :: run, rfl, List.forall_mem_cons.2 ⟨hc, hall⟩⟩
    rw [runs, hsplit]
    split
    · rename_i hc
      simp only [ih, List.mem_cons, hc, true_and]
      rw [or_left_comm, or_assoc]
    · rename_i hc
      simp [hc]

/-- **A pattern leaves `rest` of a text exactly if it accepts what stands before it.** -/
theorem exists_way_iff {a : Pattern γ} :
    (∃ m ∈ a.ways text, m.rest = rest) ↔ ∃ used, text = used ++ rest ∧ a.Accepts used := by
  induction a generalizing text rest with
  | empty => simp [Accepts, eq_comm]
  | one p =>
    cases text with
    | nil => simp [Accepts]
    | cons c text =>
      by_cases hc : p c
      · simp only [ways_one_cons, hc, if_true, List.mem_singleton, exists_eq_left, Accepts]
        constructor
        · rintro rfl; exact ⟨[c], rfl, c, hc, rfl⟩
        · rintro ⟨_, htext, _, -, rfl⟩; exact (List.cons.inj htext).2
      · simp only [ways_one_cons, hc, Bool.false_eq_true, if_false, List.not_mem_nil, false_and, exists_false,
          Accepts, false_iff]
        rintro ⟨_, htext, x, hx, rfl⟩
        obtain ⟨rfl, -⟩ := List.cons.inj htext
        exact hc hx
  | many p =>
    simp [Accepts, mem_runs]
  | seq first second ihf ihs =>
    simp only [ways_seq, List.mem_flatMap, List.mem_map, Accepts]
    constructor
    · rintro ⟨_, ⟨m, hm, n, hn, rfl⟩, rfl⟩
      obtain ⟨x, rfl, hx⟩ := ihf.1 ⟨m, hm, rfl⟩
      obtain ⟨y, hy, haccepts⟩ := ihs.1 ⟨n, hn, rfl⟩
      exact ⟨x ++ y, by simp [hy], x, y, rfl, hx, haccepts⟩
    · rintro ⟨_, rfl, x, y, rfl, hx, hy⟩
      obtain ⟨m, hm, hrest⟩ := ihf.2 ⟨x, List.append_assoc x y rest, hx⟩
      obtain ⟨n, hn, rfl⟩ := ihs.2 ⟨y, hrest, hy⟩
      exact ⟨_, ⟨m, hm, n, hn, rfl⟩, rfl⟩
  | optional inner ih =>
    simp only [ways_optional, List.mem_append, List.mem_singleton, or_and_right, exists_or, ih, exists_eq_left,
      Accepts, and_or_left, exists_eq_right, List.nil_append]
  | either first second ihf ihs =>
    simp only [ways_either, List.mem_append, or_and_right, exists_or, ihf, ihs, Accepts, and_or_left]
  | capture label inner ih =>
    simp only [ways_capture, List.mem_map, exists_exists_and_eq_and, ih, Accepts]

/-- A pattern matches in no way at the front of a text. -/
def Refuses (a : Pattern γ) (text : Text) : Prop := a.ways text = []

theorem refuses_iff_ways : a.Refuses text ↔ a.ways text = [] := Iff.rfl

theorem refuses_iff : a.Refuses text ↔ ∀ used rest, text = used ++ rest → ¬a.Accepts used := by
  rw [refuses_iff_ways, List.eq_nil_iff_forall_not_mem]
  constructor
  · intro h used rest htext haccepts
    obtain ⟨m, hm, -⟩ := exists_way_iff.2 ⟨used, htext, haccepts⟩
    exact h m hm
  · intro h m hm
    obtain ⟨used, htext, haccepts⟩ := exists_way_iff.1 ⟨m, hm, rfl⟩
    exact h used m.rest htext haccepts

theorem refuses_one (h : ∀ c ∈ text.head?, p c = false) : (one p : Pattern γ).Refuses text := by
  cases text with
  | nil => rfl
  | cons c text => simp [refuses_iff_ways, h c rfl]

theorem refuses_seq (h : a.Refuses text) : (seq a b).Refuses text := by
  rw [refuses_iff_ways] at h
  simp [refuses_iff_ways, h]

theorem refuses_capture {label : γ} (h : a.Refuses text) : (capture label a).Refuses text := by
  rw [refuses_iff_ways] at h
  simp [refuses_iff_ways, h]

/-! ## Characters that a pattern never takes -/

/-- Whether no part of a pattern takes `c`. -/
def avoids (c : Char) : Pattern γ → Bool
  | empty => true
  | one p => !p c
  | many p => !p c
  | seq first second => first.avoids c && second.avoids c
  | optional inner => inner.avoids c
  | either first second => first.avoids c && second.avoids c
  | capture _ inner => inner.avoids c

section
variable {c : Char} {parts more : List (Pattern γ)}

theorem Accepts.not_mem (h : a.Accepts used) (hc : a.avoids c) : c ∉ used := by
  induction a generalizing used with
  | empty => cases h; simp
  | one p =>
    obtain ⟨x, hx, rfl⟩ := h
    rintro ⟨⟩
    · simp [avoids, hx] at hc
    · contradiction
  | many p =>
    intro hmem
    simp [avoids, h c hmem] at hc
  | seq first second ihf ihs =>
    obtain ⟨x, y, rfl, hx, hy⟩ := h
    obtain ⟨hfirst, hsecond⟩ := Bool.and_eq_true_iff.1 hc
    exact List.mem_append.not.2 (not_or.2 ⟨ihf hx hfirst, ihs hy hsecond⟩)
  | optional inner ih =>
    rcases h with h | rfl
    · exact ih h hc
    · simp
  | either first second ihf ihs =>
    obtain ⟨hfirst, hsecond⟩ := Bool.and_eq_true_iff.1 hc
    exact h.elim (ihf · hfirst) (ihs · hsecond)
  | capture label inner ih => exact ih h hc

theorem accepts_sequence_append : (sequence (parts ++ more)).Accepts text ↔
    ∃ x y, text = x ++ y ∧ (sequence parts).Accepts x ∧ (sequence more).Accepts y := by
  induction parts generalizing text with
  | nil =>
    constructor
    · exact fun h => ⟨[], text, rfl, rfl, h⟩
    · rintro ⟨_, y, rfl, rfl, h⟩; exact h
  | cons a parts ih =>
    rw [List.cons_append, sequence_cons, sequence_cons]
    simp only [Accepts, ih]
    constructor
    · rintro ⟨x, _, rfl, hx, y, z, rfl, hy, hz⟩
      exact ⟨x ++ y, z, by simp, ⟨x, y, rfl, hx, hy⟩, hz⟩
    · rintro ⟨_, z, rfl, ⟨x, y, rfl, hx, hy⟩, hz⟩
      exact ⟨x, y ++ z, by simp, hx, y, z, rfl, hy, hz⟩

theorem avoids_sequence : (sequence parts).avoids c = parts.all (avoids c) := by
  induction parts with
  | nil => rfl
  | cons a parts ih => rw [sequence_cons, avoids, ih, List.all_cons]

theorem runs_before (hc : p c = false) (text : Text) (shorter : List Text) :
    runs p (shorter.map (· ++ c :: rest)) (text ++ c :: rest) = (runs p shorter text).map (· ++ c :: rest) := by
  induction text generalizing shorter with
  | nil => simp [runs, hc]
  | cons x text ih =>
    rw [List.cons_append, runs, runs]
    split
    · exact ih ((x :: text) :: shorter)
    · rfl

/-- **Up to a character that it never takes, a pattern matches in the same ways whatever stands behind.** -/
theorem ways_before (hc : a.avoids c) (text : Text) : ∃ ms : List (Match γ), (∀ m ∈ ms, m.rest <:+ text) ∧
    ∀ rest, a.ways (text ++ c :: rest) = ms.map fun m => ⟨m.captures, m.rest ++ c :: rest⟩ := by
  induction a generalizing text with
  | empty => exact ⟨[⟨[], text⟩], by simp, fun rest => rfl⟩
  | one p =>
    have hc : p c = false := by simpa [avoids] using hc
    cases text with
    | nil => exact ⟨[], by simp, by simp [hc]⟩
    | cons x text =>
      by_cases hx : p x
      · exact ⟨[⟨[], text⟩], by simp, by simp [hx]⟩
      · exact ⟨[], by simp, by simp [hx]⟩
  | many p =>
    have hc : p c = false := by simpa [avoids] using hc
    refine ⟨(runs p [] text).map fun rest => ⟨[], rest⟩, ?_, fun rest => ?_⟩
    · intro m hm
      obtain ⟨left, hleft, rfl⟩ := List.mem_map.1 hm
      rcases mem_runs.1 hleft with ⟨run, rfl, -⟩ | hshorter
      · exact List.suffix_append run left
      · cases hshorter
    · have hruns : runs p [] (text ++ c :: rest) = (runs p [] text).map (· ++ c :: rest) := runs_before hc text []
      simp [hruns]
  | seq first second ihf ihs =>
    obtain ⟨hfirst, hsecond⟩ := Bool.and_eq_true_iff.1 hc
    obtain ⟨ms, hms, hways⟩ := ihf hfirst text
    -- wherever the first part stops, the second finds the same way on
    choose ns hns hnext using fun left => ihs hsecond left
    refine ⟨ms.flatMap fun m => (ns m.rest).map fun n => ⟨m.captures ++ n.captures, n.rest⟩, ?_, fun rest => ?_⟩
    · simp only [List.mem_flatMap, List.mem_map]
      rintro _ ⟨m, hm, n, hn, rfl⟩
      exact (hns _ n hn).trans (hms m hm)
    · simp [hways, hnext, List.flatMap_map, List.map_flatMap, Function.comp_def]
  | optional inner ih =>
    obtain ⟨ms, hms, hways⟩ := ih hc text
    refine ⟨ms ++ [⟨[], text⟩], ?_, by simp [hways]⟩
    simpa [or_imp, forall_and] using hms
  | either first second ihf ihs =>
    obtain ⟨hfirst, hsecond⟩ := Bool.and_eq_true_iff.1 hc
    obtain ⟨ms, hms, hways⟩ := ihf hfirst text
    obtain ⟨ns, hns, hways'⟩ := ihs hsecond text
    exact ⟨ms ++ ns, List.forall_mem_append.2 ⟨hms, hns⟩, by simp [hways, hways']⟩
  | capture label inner ih =>
    obtain ⟨ms, hms, hways⟩ := ih hc text
    refine ⟨ms.map fun m => ⟨(label, text.take (text.length - m.rest.length)) :: m.captures, m.rest⟩, ?_, fun rest => ?_⟩
    · simpa using hms
    · rw [ways_capture, hways, List.map_map, List.map_map]
      refine List.map_congr_left fun m _ => ?_
      have hlength : (text ++ c :: rest).length - (m.rest ++ c :: rest).length = text.length - m.rest.length := by
        simp only [List.length_append]
        omega
      simp only [Function.comp_apply, hlength, List.take_append_of_le_length (Nat.sub_le _ _)]

theorem ways_literal : (literal used : Pattern γ).ways (used ++ rest) = [⟨[], rest⟩] := by
  induction used with
  | nil => rfl
  | cons x used ih => simp [literal_cons, ih]

/-- A pattern that ends with a closer, of which the rest never takes the first character, looks no further
than the first closer. -/
theorem ways_closed (hparts : parts.all (avoids c)) (htext : c ∉ text) (last : Char) :
    ∃ css : List (List (γ × Text)), ∀ rest,
      (sequence (parts ++ [literal [c, last]])).ways (text ++ c :: last :: rest) = css.map fun cs => ⟨cs, rest⟩ := by
  induction parts generalizing text with
  | nil =>
    cases text with
    | nil =>
      refine ⟨[[]], fun rest => ?_⟩
      have hways : (literal [c, last] : Pattern γ).ways (c :: last :: rest) = [⟨[], rest⟩] := ways_literal
      rw [List.nil_append, List.nil_append, sequence_cons, ways_seq, hways]
      rfl
    | cons x text =>
      have hx : (x == c) = false := beq_eq_false_iff_ne.2 fun h => htext (h ▸ List.mem_cons_self)
      have hrefuses : ∀ rest, (one (· == c) : Pattern γ).Refuses (x :: (text ++ c :: last :: rest)) :=
        fun rest => refuses_one (by rintro _ ⟨⟩; exact hx)
      exact ⟨[], fun rest => refuses_seq (refuses_seq (hrefuses rest))⟩
  | cons a parts ih =>
    obtain ⟨ha, hmore⟩ := Bool.and_eq_true_iff.1 hparts
    obtain ⟨ms, hms, hways⟩ := ways_before ha text
    choose! css hcss using fun (left : Text) (hleft : c ∉ left) => ih hmore hleft
    refine ⟨ms.flatMap fun m => (css m.rest).map (m.captures ++ ·), fun rest => ?_⟩
    rw [List.cons_append, sequence_cons, ways_seq, hways, List.flatMap_map, List.map_flatMap]
    refine List.flatMap_congr fun m hm => ?_
    rw [hcss m.rest (fun hmem => htext ((hms m hm).subset hmem)), List.map_map, List.map_map]
    rfl

end

/-! ## The preferred match -/

/-- Of all ways to match at the front of a text the first has these pieces and leaves `rest`. -/
def Prefers (a : Pattern γ) (text : Text) (captures : List (γ × Text)) (rest : Text) : Prop :=
  (a.ways text).head? = some ⟨captures, rest⟩

theorem prefers_iff_ways : a.Prefers text cs rest ↔ (a.ways text).head? = some ⟨cs, rest⟩ := Iff.rfl

theorem prefers_empty : (empty : Pattern γ).Prefers text [] text := rfl

theorem prefers_one {c : Char} (hc : p c) : (one p : Pattern γ).Prefers (c :: rest) [] rest := by
  simp [prefers_iff_ways, hc]

/-- A run takes all it can. -/
theorem prefers_many (hused : ∀ c ∈ used, p c) (hrest : ∀ c ∈ rest.head?, p c = false) :
    (many p : Pattern γ).Prefers (used ++ rest) [] rest := by
  have hfirst : ∀ shorter, (runs p shorter (used ++ rest)).head? = some rest := by
    induction used with
    | nil =>
      intro shorter
      cases rest with
      | nil => rfl
      | cons c rest => simp [runs, hrest c rfl]
    | cons c used ih =>
      obtain ⟨hc, hmore⟩ := List.forall_mem_cons.1 hused
      intro shorter
      rw [List.cons_append, runs, if_pos hc]
      exact ih hmore _
  rw [prefers_iff_ways, ways_many, List.head?_map, hfirst]
  rfl

theorem prefers_seq (ha : a.Prefers text cs mid) (hb : b.Prefers mid ds rest) :
    (seq a b).Prefers text (cs ++ ds) rest := by
  obtain ⟨_, hways⟩ := List.head?_eq_some_iff.1 ha
  simp only [prefers_iff_ways, ways_seq, hways, List.flatMap_cons, List.head?_append, List.head?_map] at hb ⊢
  simp [hb]

theorem prefers_literal : (literal used : Pattern γ).Prefers (used ++ rest) [] rest := by
  rw [prefers_iff_ways, ways_literal]
  rfl

theorem prefers_oneOrMore (hne : used ≠ []) (hused : ∀ c ∈ used, p c) (hrest : ∀ c ∈ rest.head?, p c = false) :
    (oneOrMore p : Pattern γ).Prefers (used ++ rest) [] rest := by
  obtain ⟨c, run, rfl⟩ := List.exists_cons_of_ne_nil hne
  obtain ⟨hc, hrun⟩ := List.forall_mem_cons.1 hused
  exact prefers_seq (prefers_one hc) (prefers_many hrun hrest)

theorem prefers_capture {label : γ} (h : a.Prefers (used ++ rest) cs rest) :
    (capture label a).Prefers (used ++ rest) ((label, used) :: cs) rest := by
  rw [prefers_iff_ways] at h
  simp [prefers_iff_ways, h]

theorem prefers_optional (h : a.Prefers text cs rest) : (optional a).Prefers text cs rest := by
  rw [prefers_iff_ways] at h
  simp [prefers_iff_ways, h]

theorem prefers_skip (h : a.Refuses text) : (optional a).Prefers text [] text := by
  rw [refuses_iff_ways] at h
  simp [prefers_iff_ways, h]

/-- An optional part is left out if nothing can follow it. -/
theorem prefers_seq_skip (h : ∀ used rest, text = used ++ rest → a.Accepts used → b.Refuses rest)
    (hb : b.Prefers text cs rest) : (seq (optional a) b).Prefers text cs rest := by
  have hnone : ∀ m ∈ a.ways text, b.ways m.rest = [] := by
    intro m hm
    obtain ⟨used, htext, haccepts⟩ := exists_way_iff.1 ⟨m, hm, rfl⟩
    exact h used m.rest htext haccepts
  have hflat : ((a.ways text).flatMap fun m => (b.ways m.rest).map fun n => ⟨m.captures ++ n.captures, n.rest⟩) =
      ([] : List (Match γ)) := by
    simpa [List.flatMap_eq_nil_iff] using hnone
  rw [prefers_iff_ways] at hb
  simp [prefers_iff_ways, hflat, hb]

/-! ## Searching -/

theorem searchFrom_eq (a : Pattern γ) (n : Nat) (text : Text) : a.searchFrom n text = a.search (text.drop n) := by
  induction text generalizing n with
  | nil => simp [search, searchFrom]
  | cons c text ih =>
    cases n with
    | zero => rfl
    | succ n => rw [searchFrom, ih, List.drop_succ_cons]

/-- **A match is taken, and the search goes on after it.** -/
theorem search_of_prefers (hne : used ≠ []) (h : a.Prefers (used ++ rest) cs rest) :
    a.search (used ++ rest) = cs :: a.search rest := by
  obtain ⟨c, used, rfl⟩ := List.exists_cons_of_ne_nil hne
  rw [prefers_iff_ways, List.cons_append] at h
  rw [List.cons_append, search, searchFrom]
  simp [h, searchFrom_eq]

theorem search_of_refuses {c : Char} (h : a.Refuses (c :: rest)) : a.search (c :: rest) = a.search rest := by
  rw [refuses_iff_ways] at h
  simp [search, searchFrom, h]

end Pattern

/-- No opening delimiter of `d` stands in a text. -/
def Delim.OpenerFree (d : Delim) (text : Text) : Prop :=
  text.IsChain fun x y => ¬(x = '{' ∧ y = d.mark.1)

/-- **Where no directive opens, a pattern of such directives finds nothing.** -/
theorem Pattern.search_of_openerFree {γ : Type} {d : Delim} {a : Pattern γ} {used rest : Text}
    (h : d.OpenerFree (used ++ rest.take 1)) :
    (seq (literal d.opener) a).search (used ++ rest) = (seq (literal d.opener) a).search rest := by
  induction used with
  | nil => rfl
  | cons c used ih =>
    rw [List.cons_append] at h
    obtain ⟨hfirst, hmore⟩ := List.isChain_cons.1 h
    rw [List.cons_append, search_of_refuses, ih hmore]
    refine refuses_iff.2 ?_
    rintro _ after htext ⟨_, y, rfl, hopener, -⟩
    rw [accepts_literal] at hopener
    subst hopener
    simp only [Delim.opener, List.cons_append, List.nil_append, List.cons.injEq] at htext
    obtain ⟨rfl, htext⟩ := htext
    refine hfirst d.mark.1 ?_ ⟨rfl, rfl⟩
    rw [Delim.head?_append_take, htext]
    rfl

end MailDialect
