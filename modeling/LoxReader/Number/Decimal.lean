import LoxReader.Number.Rounding

/-! # Decimals -/

namespace LoxReader.Number

/-- The decimal `coefficient · 10 ^ exponent`. -/
structure Decimal where
  coefficient : Nat
  exponent : Int
deriving DecidableEq, Repr

/-- The nearest binary64 number. Exponents so large or so small that the coefficient cannot
matter are decided before any power of ten is taken. -/
def Decimal.toBinary64 (d : Decimal) : Binary64 :=
  if d.coefficient = 0 then .zero
  else if 0 ≤ d.exponent then
    if 309 < d.exponent then .infinite false
    else .ofRatio false (d.coefficient * Nat.pow 10 d.exponent.toNat) 1
  else if d.coefficient.log2 / 3 + 331 < (-d.exponent).toNat then .zero
  else .ofRatio false d.coefficient (Nat.pow 10 (-d.exponent).toNat)

end LoxReader.Number
