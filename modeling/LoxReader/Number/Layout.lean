import LoxReader.Number.Shortest

/-! # Numbers as text

Two forms: the short form, which shows the fewest digits that read back, and the display
form, which shows a whole number by all its digits. -/

namespace LoxReader.Number

/-- The least decimal exponent of the leading digit that is written without a power of ten. -/
def positionalFrom : Int := -4

/-- The least decimal exponent of the leading digit that is written with a power of ten
again. -/
def positionalBelow : Int := 16

/-- A power of ten: a sign and at least two digits. -/
def exponentPart (e : Int) : List Char :=
  let digits := Nat.toDigits 10 e.natAbs
  'e' :: (if e < 0 then '-' else '+') :: (List.replicate (2 - digits.length) '0' ++ digits)

/-- A decimal without a power of ten, always with a point and a digit on either side of it. -/
def Decimal.positional (d : Decimal) : List Char :=
  let digits := Nat.toDigits 10 d.coefficient
  let whole := d.exponent + digits.length
  if whole ≤ 0 then '0' :: '.' :: (List.replicate (-whole).toNat '0' ++ digits)
  else if 0 ≤ d.exponent then
    digits ++ List.replicate d.exponent.toNat '0' ++ ['.', '0']
  else digits.take whole.toNat ++ '.' :: digits.drop whole.toNat

/-- A decimal with one digit before the point and a power of ten. -/
def Decimal.scientific (d : Decimal) : List Char :=
  let digits := Nat.toDigits 10 d.coefficient
  let point := if digits.length = 1 then [] else ['.']
  digits.take 1 ++ point ++ digits.drop 1 ++ exponentPart (d.exponent + digits.length - 1)

/-- A decimal in the one of the two notations that its magnitude calls for. -/
def Decimal.text (d : Decimal) : List Char :=
  let leading := d.exponent + (Nat.toDigits 10 d.coefficient).length - 1
  if positionalFrom ≤ leading ∧ leading < positionalBelow then d.positional else d.scientific

namespace Binary64

def signText (negative : Bool) : List Char :=
  if negative then ['-'] else []

def shortText : Binary64 → List Char
  | .finite negative rank =>
    signText negative ++ (if rank.val = 0 then (⟨0, 0⟩ : Decimal) else shortest rank).text
  | .infinite negative => signText negative ++ ['i', 'n', 'f']
  | .nan => ['n', 'a', 'n']

def natMagnitude? (rank : Nat) : Option Nat :=
  if unitsOfRank rank % Nat.pow 2 1074 = 0 then some (unitsOfRank rank / Nat.pow 2 1074)
  else none

/-- The display form: a whole number by its exact digits, without a point, and anything else
in short form. Zero has no sign. -/
def display (x : Binary64) : List Char :=
  match x with
  | .finite negative rank =>
    match natMagnitude? rank with
    | some n => signText (negative && n != 0) ++ Nat.toDigits 10 n
    | none => x.shortText
  | _ => x.shortText

end Binary64

end LoxReader.Number
