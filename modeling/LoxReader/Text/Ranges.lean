/-! # Sorted ranges of code points -/

namespace LoxReader.Text

/-- A number is in a table of closed ranges when one of them covers it. The ranges
stand in increasing order, so a smaller number than the next start is in none. -/
def inRanges : List (Nat × Nat) → Nat → Bool
  | [], _ => false
  | (low, high) :: rest, n =>
    if n < low then false else if n ≤ high then true else inRanges rest n

end LoxReader.Text
