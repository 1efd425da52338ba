/-!
# Sets of characters as ranges

A character property is a list of inclusive code point ranges. The tables of this folder list only
what lies beyond ASCII; the ASCII part of each property is written out in its definition.
-/

namespace MailDialect.Unicode

/-- Inclusive ranges of code points, in increasing order. -/
abbrev Ranges := List (Nat × Nat)

/-- Whether `c` lies beyond ASCII and in one of the ranges. -/
def Ranges.has (ranges : Ranges) (c : Char) : Bool :=
  0x80 ≤ c.toNat && ranges.any fun r => r.1 ≤ c.toNat && c.toNat ≤ r.2

/-- A table never speaks about ASCII. -/
theorem Ranges.has_of_ascii (ranges : Ranges) {c : Char} (h : c.toNat < 0x80) :
    ranges.has c = false := by
  simp [Ranges.has, Nat.not_le.2 h]

end MailDialect.Unicode
