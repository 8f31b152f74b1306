/-!
# Ranges of code points

A class of characters is written as the ranges of code points it covers. `Text.inRanges` asks
whether a character lies in one of them.
-/

namespace TypeCatalog.Text

/-- The code points from the first number to the second, both included. -/
abbrev CodeRange := Nat × Nat

/-- Whether the code point of a character lies in one of the ranges. -/
def inRanges (ranges : List CodeRange) (c : Char) : Bool :=
  ranges.any fun range => decide (range.1 ≤ c.toNat) && decide (c.toNat ≤ range.2)

/-- A character lies in some ranges exactly when one of them holds its code point. -/
theorem inRanges_iff {ranges : List CodeRange} {c : Char} :
    inRanges ranges c = true ↔ ∃ range ∈ ranges, range.1 ≤ c.toNat ∧ c.toNat ≤ range.2 := by
  simp [inRanges]

end TypeCatalog.Text
