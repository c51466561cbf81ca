/-! Classes of characters that are given by ranges of their numbers. -/
namespace LabelFleet.Text

/-- The character lies in one of the ranges. They are in ascending order, and both ends belong to a
range. -/
def inRanges (ranges : List (Nat × Nat)) (c : Char) : Bool :=
  (ranges.find? fun r => c.toNat ≤ r.2).any fun r => r.1 ≤ c.toNat

end LabelFleet.Text
