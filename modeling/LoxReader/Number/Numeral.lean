import LoxReader.Number.Decimal

/-! # Numerals

A numeral is a run of digits, a fraction if there is a point, and an exponent if there is a
mark. -/

namespace LoxReader.Number

/-- The parts of a numeral. The digits after the point may be missing, those after the
exponent mark may not. -/
structure Numeral where
  whole : List Char
  fraction : Option (List Char)
  exponent : Option (Char × List Char)
deriving DecidableEq

namespace Numeral

def isMark (c : Char) : Bool :=
  c = 'e' || c = 'E'

/-- What the parts of a numeral may be. -/
def WellFormed (n : Numeral) : Prop :=
  (n.whole ≠ [] ∧ ∀ c ∈ n.whole, c.isDigit) ∧
    (∀ digits ∈ n.fraction, ∀ c ∈ digits, c.isDigit) ∧
    ∀ part ∈ n.exponent, isMark part.1 ∧ part.2 ≠ [] ∧ ∀ c ∈ part.2, c.isDigit

def spelling (n : Numeral) : List Char :=
  n.whole ++
    (match n.fraction with
      | some digits => '.' :: digits
      | none => []) ++
    (match n.exponent with
      | some (mark, digits) => mark :: digits
      | none => [])

def toDecimal (n : Numeral) : Decimal :=
  let fraction := n.fraction.getD []
  let exponent :=
    match n.exponent with
    | some (_, digits) => Nat.ofDigitChars 10 digits 0
    | none => 0
  ⟨Nat.ofDigitChars 10 (n.whole ++ fraction) 0, (exponent : Int) - fraction.length⟩

/-- The exponent part of a numeral, if the text is one or is empty. -/
def readExponent? : List Char → Option (Option (Char × List Char))
  | [] => some none
  | mark :: digits =>
    if isMark mark && !digits.isEmpty && digits.all Char.isDigit then
      some (some (mark, digits))
    else none

/-- Reads a text that is a numeral as a whole. -/
def read? (s : List Char) : Option Numeral :=
  let whole := s.takeWhile Char.isDigit
  let rest := s.dropWhile Char.isDigit
  if whole.isEmpty then none
  else
    match rest with
    | '.' :: rest =>
      (readExponent? (rest.dropWhile Char.isDigit)).map
        (⟨whole, some (rest.takeWhile Char.isDigit), ·⟩)
    | rest => (readExponent? rest).map (⟨whole, none, ·⟩)

end Numeral

end LoxReader.Number
