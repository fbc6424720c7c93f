import LoxReader.Number.Binary64

/-! # Rounding to binary64 -/

namespace LoxReader.Number

/-- The quotient of two naturals, rounded to the nearest; a tie goes to the even one. -/
def divNearest (num den : Nat) : Nat :=
  let q := num / den
  let r := num % den
  if 2 * r < den then q
  else if den < 2 * r then q + 1
  else q + q % 2

/-- The rank nearest to the ratio `num / den`, ties to the even rank. With `k` the position
of the last bit kept, the rounded significand and `k` steps of 2⁵² ranks add up to the rank,
also where rounding carries into the next power of two. -/
def nearestRank (num den : Nat) : Nat :=
  let scaled := num * Nat.pow 2 1074
  let k := (scaled / den).log2 - 52
  k * Nat.pow 2 52 + divNearest scaled (den * Nat.pow 2 k)

namespace Binary64

/-- The number nearest to a ratio, ties to even; infinite when that lies beyond the largest
finite magnitude. -/
def ofRatio (negative : Bool) (num den : Nat) : Binary64 :=
  ofRank negative (nearestRank num den)

/-- The number nearest to an integer, unless it lies beyond the finite range. -/
def ofInt? (n : Int) : Option Binary64 :=
  let rank := nearestRank n.natAbs 1
  if h : rank < 2047 * Nat.pow 2 52 then some (.finite (n < 0) ⟨rank, h⟩) else none

end Binary64

end LoxReader.Number
