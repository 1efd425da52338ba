import MailDialect.Text

/-!
# Text patterns

A pattern matches at the front of a text in one way or more, of which the earlier are preferred:
a run of characters rather takes more of them, an optional part is rather there, and the first of
two choices comes first. A text is searched from left to right, and matches do not overlap.
-/

namespace MailDialect

/-- Patterns that may name the pieces they match by labels of type `γ`. -/
inductive Pattern (γ : Type)
  | empty
  | one (p : Char → Bool)
  | many (p : Char → Bool)
  | seq (first second : Pattern γ)
  | optional (inner : Pattern γ)
  | either (first second : Pattern γ)
  | capture (label : γ) (inner : Pattern γ)

namespace Pattern

variable {γ : Type}

/-- A way to match: the pieces with a label, and the text after the match. -/
structure Match (γ : Type) where
  captures : List (γ × Text)
  rest : Text

/-- What is left of a text after a run of characters in `p`, the longest run first, and then
`shorter`. -/
def runs (p : Char → Bool) (shorter : List Text) : Text → List Text
  | [] => [] :: shorter
  | c :: rest =>
    if p c then runs p ((c :: rest) :: shorter) rest else (c :: rest) :: shorter

/-- All ways to match at the front of a text, the preferred one first. -/
def ways : Pattern γ → Text → List (Match γ)
  | empty, text => [⟨[], text⟩]
  | one _, [] => []
  | one p, c :: rest => if p c then [⟨[], rest⟩] else []
  | many p, text => (runs p [] text).map fun rest => ⟨[], rest⟩
  | seq first second, text =>
    (first.ways text).flatMap fun m =>
      (second.ways m.rest).map fun n => ⟨m.captures ++ n.captures, n.rest⟩
  | optional inner, text => inner.ways text ++ [⟨[], text⟩]
  | either first second, text => first.ways text ++ second.ways text
  | capture label inner, text =>
    (inner.ways text).map fun m =>
      ⟨(label, text.take (text.length - m.rest.length)) :: m.captures, m.rest⟩

section
variable {text : Text}

@[simp] theorem ways_empty : (empty : Pattern γ).ways text = [⟨[], text⟩] := rfl

@[simp] theorem ways_one_nil {p : Char → Bool} : (one p : Pattern γ).ways [] = [] := rfl

@[simp] theorem ways_one_cons {p : Char → Bool} {c : Char} :
    (one p : Pattern γ).ways (c :: text) = if p c then [⟨[], text⟩] else [] := rfl

@[simp] theorem ways_many {p : Char → Bool} :
    (many p : Pattern γ).ways text = (runs p [] text).map fun rest => ⟨[], rest⟩ := rfl

@[simp] theorem ways_seq {first second : Pattern γ} : (seq first second).ways text =
    (first.ways text).flatMap fun m =>
      (second.ways m.rest).map fun n => ⟨m.captures ++ n.captures, n.rest⟩ := rfl

@[simp] theorem ways_optional {inner : Pattern γ} :
    (optional inner).ways text = inner.ways text ++ [⟨[], text⟩] := rfl

@[simp] theorem ways_either {first second : Pattern γ} :
    (either first second).ways text = first.ways text ++ second.ways text := rfl

@[simp] theorem ways_capture {label : γ} {inner : Pattern γ} : (capture label inner).ways text =
    (inner.ways text).map fun m =>
      ⟨(label, text.take (text.length - m.rest.length)) :: m.captures, m.rest⟩ := rfl

end

/-- The pieces of every match in a text whose first `skip` characters belong to a match already. -/
def searchFrom (p : Pattern γ) (skip : Nat) : Text → List (List (γ × Text))
  | [] => []
  | c :: rest =>
    match skip with
    | n + 1 => p.searchFrom n rest
    | 0 =>
      match (p.ways (c :: rest)).head? with
      | some m => m.captures :: p.searchFrom (rest.length - m.rest.length) rest
      | none => p.searchFrom 0 rest

/-- The pieces of every match in a text, from left to right. -/
def search (p : Pattern γ) (text : Text) : List (List (γ × Text)) :=
  p.searchFrom 0 text

@[simp] theorem search_nil {p : Pattern γ} : p.search [] = [] := rfl

/-! ## Building patterns -/

def literal (text : Text) : Pattern γ :=
  text.foldr (fun c p => seq (one (· == c)) p) empty

theorem literal_cons {c : Char} {text : Text} :
    (literal (c :: text) : Pattern γ) = seq (one (· == c)) (literal text) := rfl

def oneOrMore (p : Char → Bool) : Pattern γ :=
  seq (one p) (many p)

def sequence (parts : List (Pattern γ)) : Pattern γ :=
  parts.foldr seq empty

theorem sequence_cons {p : Pattern γ} {parts : List (Pattern γ)} :
    sequence (p :: parts) = seq p (sequence parts) := rfl

end Pattern

end MailDialect
