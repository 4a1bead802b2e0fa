

namespace Arith.Text

/-- The ranges hold both their ends and come in increasing order, so only the first that does not end before `c` can
hold it. -/
def inRanges (ranges : List (Nat × Nat)) (c : Char) : Bool :=
  (ranges.find? (c.toNat ≤ ·.2)).any (·.1 ≤ c.toNat)

end Arith.Text
