/-! # Binary64 numbers

The finite magnitudes of the binary64 format are numbered by rank, in increasing order from
zero. The value of a rank is a whole number of units, one unit being the least positive
magnitude 2⁻¹⁰⁷⁴, so order and equality of values are order and equality of naturals. -/

namespace LoxReader.Number

/-- A binary64 number. Both zeros have rank 0, and there is one NaN. -/
inductive Binary64 where
  | finite (negative : Bool) (rank : Fin (2047 * Nat.pow 2 52))
  | infinite (negative : Bool)
  | nan
deriving DecidableEq

/-- The value of a rank, in units of 2⁻¹⁰⁷⁴. Ranks below 2⁵² are the subnormal magnitudes;
after them the spacing doubles every 2⁵² ranks. -/
def unitsOfRank (rank : Nat) : Nat :=
  if rank < Nat.pow 2 52 then rank
  else (Nat.pow 2 52 + rank % Nat.pow 2 52) * Nat.pow 2 (rank / Nat.pow 2 52 - 1)

namespace Binary64

def zero : Binary64 := .finite false ⟨0, by decide⟩

/-- The number of a rank. Ranks beyond the largest finite magnitude give infinity. -/
def ofRank (negative : Bool) (rank : Nat) : Binary64 :=
  if h : rank < 2047 * Nat.pow 2 52 then .finite negative ⟨rank, h⟩ else .infinite negative

def isNaN : Binary64 → Bool
  | .nan => true
  | _ => false

/-- Whether the two have the same value, counting NaN as a value of its own. The zeros of
either sign have the same value. -/
def sameValue : Binary64 → Binary64 → Bool
  | .finite s r, .finite s' r' => r = r' && (s = s' || r.val = 0)
  | .infinite s, .infinite s' => s = s'
  | .nan, .nan => true
  | _, _ => false

/-- Equality of numbers: NaN equals nothing. -/
def equals (x y : Binary64) : Bool :=
  !x.isNaN && x.sameValue y

end Binary64

end LoxReader.Number
