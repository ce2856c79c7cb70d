/-!
# Sets of characters given by ranges

A property of characters that a standard lists is a table of inclusive ranges of code points, in
ascending order.
-/

namespace FrontEnd.Text

/-- Whether a character lies in one of the inclusive ranges of a table. -/
def inRanges (table : List (Nat × Nat)) (c : Char) : Bool :=
  table.any fun range => range.1 ≤ c.toNat && c.toNat ≤ range.2

/-- Lying in a table is lying between the two ends of one of its ranges. -/
theorem inRanges_iff {table : List (Nat × Nat)} {c : Char} :
    inRanges table c = true ↔ ∃ range ∈ table, range.1 ≤ c.toNat ∧ c.toNat ≤ range.2 := by
  simp [inRanges]

end FrontEnd.Text
