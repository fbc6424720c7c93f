import LoxReader.Token.Basic

/-! # Bare values

Values from outside the tree language: what a caller may hand in to be made a literal, or
leave in a tree by mistake. -/

namespace LoxReader

open Number

/-- A value that is not a node of a tree. -/
inductive Bare where
  | nothing
  | boolean (value : Bool)
  | integer (value : Int)
  | number (value : Binary64)
  | text (value : String)
  | sequence (items : List Bare)
  | mapping (entries : List (String × Bare))
  | token (value : Token)

namespace Bare

def typeName : Bare → String
  | .nothing => "NoneType"
  | .boolean _ => "bool"
  | .integer _ => "int"
  | .number _ => "float"
  | .text _ => "str"
  | .sequence _ => "list"
  | .mapping _ => "dict"
  | .token _ => "Token"

/-- Whether a value counts as true. Nothing, zero and whatever is empty do not. -/
def isTrue : Bare → Bool
  | .nothing => false
  | .boolean b => b
  | .integer n => n ≠ 0
  | .number x => !x.equals .zero
  | .text s => !s.isEmpty
  | .sequence items => !items.isEmpty
  | .mapping entries => !entries.isEmpty
  | .token _ => true

/-- The integer that a truth value or an integer stands for. -/
def integer? : Bare → Option Int
  | .boolean b => some (if b then 1 else 0)
  | .integer n => some n
  | _ => none

/-- Whether an integer and a number have exactly the same value. -/
def integerEquals (n : Int) : Binary64 → Bool
  | .finite negative rank =>
    n.natAbs * Nat.pow 2 1074 = unitsOfRank rank && (n = 0 || negative = decide (n < 0))
  | _ => false

mutual

/-- Equality of values, up to a notion of equality for numbers. Truth values and integers are
compared with numbers by value. -/
def equalsBy (same : Binary64 → Binary64 → Bool) : Bare → Bare → Bool
  | .nothing, .nothing => true
  | .text s, .text t => s == t
  | .number x, .number y => same x y
  | .sequence l, .sequence m => sequenceEqualsBy same l m
  | .mapping l, .mapping m => l.length == m.length && mappingWithin same l m
  | .token t, .token u => t.equalsBy same u
  | .number x, b => b.integer?.any (integerEquals · x)
  | a, .number y => a.integer?.any (integerEquals · y)
  | a, b =>
    match a.integer?, b.integer? with
    | some m, some n => m == n
    | _, _ => false

/-- Equality of sequences, item by item. -/
def sequenceEqualsBy (same : Binary64 → Binary64 → Bool) : List Bare → List Bare → Bool
  | [], [] => true
  | a :: l, b :: m => equalsBy same a b && sequenceEqualsBy same l m
  | _, _ => false

/-- Whether every entry has an equal one under its key. -/
def mappingWithin (same : Binary64 → Binary64 → Bool) :
    List (String × Bare) → List (String × Bare) → Bool
  | [], _ => true
  | (key, a) :: l, m =>
    (match m.lookup key with
      | some b => equalsBy same a b
      | none => false) && mappingWithin same l m

end

end Bare

/-- Why a value cannot be made a literal. -/
inductive LiteralError where
  /-- An integer beyond the range of numbers. -/
  | overflow
  /-- A value of a type that literals do not have. -/
  | unsupported (typeName : String)
deriving DecidableEq, Repr

def LiteralError.message : LiteralError → String
  | .overflow => "int too large to convert to float"
  | .unsupported typeName => "Cannot make a literal from " ++ typeName

end LoxReader
