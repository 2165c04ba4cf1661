/-! Sets of code points as lists of closed ranges. -/

namespace LexRules.Text

def inRanges (n : Nat) (ranges : List (Nat × Nat)) : Bool :=
  ranges.any fun r => r.1 ≤ n && n ≤ r.2

end LexRules.Text
