import LoxReader.Number.Decimal

/-! # Shortest decimals

The decimal with the fewest digits among those that round to a given magnitude, and of
several such the nearest. Grids of decimals are tried from coarse to fine; on each only the
two neighbours of the exact value can be the nearest. -/

namespace LoxReader.Number

/-- The value of a rank divided by `10 ^ exponent`, as numerator and denominator. -/
def scaledRatio (rank : Nat) (exponent : Int) : Nat × Nat :=
  (unitsOfRank rank * Nat.pow 10 (-exponent).toNat, Nat.pow 2 1074 * Nat.pow 10 exponent.toNat)

def Decimal.roundsTo (d : Decimal) (rank : Nat) : Bool :=
  d.toBinary64 = .ofRank false rank

/-- The multiple of `10 ^ exponent` that rounds to the magnitude of a rank and is nearest to
it, a tie going to the even coefficient; `none` when no multiple rounds to it. -/
def onGrid? (rank : Nat) (exponent : Int) : Option Decimal :=
  let (num, den) := scaledRatio rank exponent
  let low : Decimal := ⟨num / den, exponent⟩
  let high : Decimal := ⟨num / den + 1, exponent⟩
  match low.roundsTo rank, high.roundsTo rank with
  | false, false => none
  | true, false => some low
  | false, true => some high
  | true, true => if divNearest num den = low.coefficient then some low else some high

/-- The first hit on the grids of exponent `steps - 1074` and finer. The value itself is a
multiple of 10⁻¹⁰⁷⁴, so the last grid always has one. -/
def shortestFrom (rank : Nat) : Nat → Decimal
  | 0 => ⟨unitsOfRank rank * Nat.pow 5 1074, -1074⟩
  | steps + 1 =>
    match onGrid? rank ((steps : Int) - 1073) with
    | some d => d
    | none => shortestFrom rank steps

/-- A decimal with the fewest digits that rounds to the magnitude of a rank. The search
starts at the first power of ten above it, found from the position of its leading bit. -/
def shortest (rank : Nat) : Decimal :=
  shortestFrom rank (752 + ((unitsOfRank rank).log2 + 1) * 30103 / 100000)

end LoxReader.Number
