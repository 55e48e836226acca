/-!
# Ranges of code points

Properties of characters that core does not know are kept as tables of ranges.
-/

namespace LinkedData.Text

/-- A range of code points, both ends included. -/
abbrev CodeRange := Nat × Nat

/-- Does the range hold the character? -/
def CodeRange.holds (r : CodeRange) (c : Char) : Bool :=
  r.1 ≤ c.toNat && c.toNat ≤ r.2

/-- Does any of the ranges hold the character? -/
def inRanges (ranges : List CodeRange) (c : Char) : Bool :=
  ranges.any (·.holds c)

end LinkedData.Text
