import LoxReader.Expr.Bare
import LoxReader.Expr.Literal

/-! # Literals from bare values -/

namespace LoxReader

open Number

namespace Literal

/-- The number literal of an integer: the nearest number, unless the integer is too large. -/
def ofInt (n : Int) : Except LiteralError Literal :=
  match Binary64.ofInt? n with
  | some x => .ok (.number x)
  | none => .error .overflow

/-- The literal of a bare value, of the kind that goes with its type. -/
def ofBare : Bare → Except LiteralError Literal
  | .nothing => .ok .nil
  | .boolean b => .ok (.boolean b)
  | .integer n => ofInt n
  | .number x => .ok (.number x)
  | .text s => .ok (.string s)
  | b => .error (.unsupported b.typeName)

/-- The number literal of a bare value: a number as it is, an integer or a truth value by
conversion. -/
def numberOfBare : Bare → Except LiteralError Literal
  | .number x => .ok (.number x)
  | b =>
    match b.integer? with
    | some n => ofInt n
    | none => .error (.unsupported b.typeName)

/-- The truth value of a bare value as a literal. -/
def booleanOfBare (b : Bare) : Literal :=
  .boolean b.isTrue

end Literal

end LoxReader
