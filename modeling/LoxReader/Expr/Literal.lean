import LoxReader.Token.Basic

/-! # Literals -/

namespace LoxReader

open Number

inductive Literal where
  | number (value : Binary64)
  | string (value : String)
  | boolean (value : Bool)
  | nil
deriving DecidableEq

inductive LiteralKind where
  | number | string | boolean | nil
deriving DecidableEq, Repr

namespace LiteralKind

/-- Every kind of literal with its name, in the order of declaration. -/
def all : List (LiteralKind × String) :=
  [(.number, "NUMBER"), (.string, "STRING"), (.boolean, "BOOLEAN"), (.nil, "NIL")]

def text : LiteralKind → String
  | .number => "number"
  | .string => "string"
  | .boolean => "boolean"
  | .nil => "nil"

end LiteralKind

namespace Literal

def kind : Literal → LiteralKind
  | .number _ => .number
  | .string _ => .string
  | .boolean _ => .boolean
  | .nil => .nil

/-- The literal as it is displayed. A string stands between double quotes, unescaped. -/
def display : Literal → String
  | .number x => String.ofList x.display
  | .string s => "\"" ++ s ++ "\""
  | .boolean b => if b then "true" else "false"
  | .nil => "nil"

/-- Equality of literals up to a notion of equality for numbers. -/
def equalsBy (same : Binary64 → Binary64 → Bool) : Literal → Literal → Bool
  | .number x, .number y => same x y
  | .string s, .string t => s == t
  | .boolean a, .boolean b => a == b
  | .nil, .nil => true
  | _, _ => false

/-- Equality of literals: the same kind and the same value, numbers compared as numbers. -/
def equals (a b : Literal) : Bool :=
  a.equalsBy Binary64.equals b

end Literal

def Token.literal? (t : Token) : Option Literal :=
  match t.kind, t.payload with
  | .kwFalse, _ => some (.boolean false)
  | .kwTrue, _ => some (.boolean true)
  | .kwNil, _ => some .nil
  | .number, some (.number x) => some (.number x)
  | .string, some (.text s) => some (.string s)
  | _, _ => none

end LoxReader
