/-!
# Template text

Template text is a list of characters. Places in it are counted in bytes of its UTF-8 form, so a
piece of a text is named by the byte where it starts and the byte after its end.
-/

namespace MailDialect

/-- The text of a template, or a piece of it. -/
abbrev Text := List Char

namespace Text

/-- The length of the UTF-8 form. -/
def byteSize : Text → Nat
  | [] => 0
  | c :: rest => c.utf8Size + byteSize rest

/-- The text without the characters that start in its first `n` bytes. -/
def dropBytes : Nat → Text → Text
  | 0, text => text
  | _ + 1, [] => []
  | n + 1, c :: rest => dropBytes (n + 1 - c.utf8Size) rest

/-- The characters that start in the first `n` bytes. -/
def takeBytes : Nat → Text → Text
  | 0, _ => []
  | _ + 1, [] => []
  | n + 1, c :: rest => c :: takeBytes (n + 1 - c.utf8Size) rest

/-- The piece of `source` from byte `start` up to byte `stop`. -/
def slice (source : Text) (start stop : Nat) : Text :=
  takeBytes (stop - start) (dropBytes start source)

@[simp] theorem byteSize_nil : byteSize [] = 0 := rfl

@[simp] theorem byteSize_cons (c : Char) (rest : Text) :
    byteSize (c :: rest) = c.utf8Size + byteSize rest := rfl

@[simp] theorem byteSize_append (a b : Text) : byteSize (a ++ b) = byteSize a + byteSize b := by
  induction a with
  | nil => simp
  | cons c a ih => simp [ih, Nat.add_assoc]

theorem byteSize_pos {c : Char} {rest : Text} : 0 < byteSize (c :: rest) :=
  Nat.lt_of_lt_of_le c.utf8Size_pos (Nat.le_add_right _ _)

/-- Dropping the bytes of a whole piece leaves what follows it. -/
@[simp] theorem dropBytes_append (a b : Text) : dropBytes (byteSize a) (a ++ b) = b := by
  induction a with
  | nil => simp [dropBytes]
  | cons c a ih =>
    have hc : 0 < c.utf8Size := c.utf8Size_pos
    obtain ⟨n, hn⟩ : ∃ n, byteSize (c :: a) = n + 1 :=
      ⟨c.utf8Size + byteSize a - 1, by rw [byteSize_cons]; omega⟩
    have hrest : n + 1 - c.utf8Size = byteSize a := by rw [← hn]; simp
    rw [hn, List.cons_append, dropBytes, hrest, ih]

/-- Taking the bytes of a whole piece gives the piece. -/
@[simp] theorem takeBytes_append (a b : Text) : takeBytes (byteSize a) (a ++ b) = a := by
  induction a with
  | nil => simp [takeBytes]
  | cons c a ih =>
    have hc : 0 < c.utf8Size := c.utf8Size_pos
    obtain ⟨n, hn⟩ : ∃ n, byteSize (c :: a) = n + 1 :=
      ⟨c.utf8Size + byteSize a - 1, by rw [byteSize_cons]; omega⟩
    have hrest : n + 1 - c.utf8Size = byteSize a := by rw [← hn]; simp
    rw [hn, List.cons_append, takeBytes, hrest, ih]

/-- A piece is what stands between its own byte places. -/
theorem slice_append_append (a b c : Text) :
    slice (a ++ b ++ c) (byteSize a) (byteSize a + byteSize b) = b := by
  simp [slice, List.append_assoc]

end Text

end MailDialect
