import LoxReader.Expr.Bare
import LoxReader.Expr.Basic

/-! # Sketches of trees

Trees in which a value that is no node may stand in place of a node. Every walk goes through
a node before its children and through the left child before the right one, and fails at the
first value that is no node. -/

namespace LoxReader

open Number

/-- A tree that may hold foreign values. -/
inductive Sketch where
  | foreign (value : Bare)
  | literal (value : Literal)
  | group (inner : Sketch)
  | unary (operator : Token) (operand : Sketch)
  | binary (left : Sketch) (operator : Token) (right : Sketch)

/-- A node of a sketch without its children. -/
inductive SketchNode where
  | foreign (value : Bare)
  | literal (value : Literal)
  | group
  | unary (operator : Token)
  | binary (operator : Token)

/-- How many nodes of each kind were visited. -/
structure Tally where
  binary : Nat := 0
  unary : Nat := 0
  group : Nat := 0
  literal : Nat := 0
deriving DecidableEq, Repr

/-- The wording for a value that a walk met in place of a node. -/
def Bare.unhandledMessage (b : Bare) : String :=
  "Unhandled expression node: " ++ b.typeName

namespace Sketch

def ofExpr : Expr → Sketch
  | .literal value => .literal value
  | .group inner => .group (ofExpr inner)
  | .unary operator operand => .unary operator (ofExpr operand)
  | .binary left operator right => .binary (ofExpr left) operator (ofExpr right)

/-- The nodes in the order of a walk. -/
def nodes : Sketch → List SketchNode
  | .foreign value => [.foreign value]
  | .literal value => [.literal value]
  | .group inner => .group :: inner.nodes
  | .unary operator operand => .unary operator :: operand.nodes
  | .binary left operator right => .binary operator :: (left.nodes ++ right.nodes)

/-- The canonical rendering, or the first foreign value. -/
def render : Sketch → Except Bare String
  | .foreign value => .error value
  | .literal value => .ok ("(Literal " ++ value.display ++ ")")
  | .group inner =>
    match inner.render with
    | .ok text => .ok ("(Grouping " ++ text ++ ")")
    | .error value => .error value
  | .unary operator operand =>
    match operand.render with
    | .ok text => .ok ("(Unary " ++ operator.display ++ " " ++ text ++ ")")
    | .error value => .error value
  | .binary left operator right =>
    match left.render with
    | .error value => .error value
    | .ok leftText =>
      match right.render with
      | .error value => .error value
      | .ok rightText =>
        .ok ("(Binary " ++ operator.display ++ " " ++ leftText ++ " " ++ rightText ++ ")")

/-- The renderings of several sketches, one per line, or the first foreign value. -/
def renderAll (sketches : List Sketch) : Except Bare String :=
  match sketches.mapM render with
  | .ok texts => .ok ("\n".intercalate texts)
  | .error value => .error value

/-- A walk that counts. It gives the depth of the sketch or the first foreign value, and the
counts with the nodes visited added; a walk that fails keeps what it counted. -/
def visit (counts : Tally) : Sketch → Except Bare Nat × Tally
  | .foreign value => (.error value, counts)
  | .literal _ => (.ok 1, { counts with literal := counts.literal + 1 })
  | .group inner =>
    match inner.visit { counts with group := counts.group + 1 } with
    | (.ok depth, counts) => (.ok (depth + 1), counts)
    | failed => failed
  | .unary _ operand =>
    match operand.visit { counts with unary := counts.unary + 1 } with
    | (.ok depth, counts) => (.ok (depth + 1), counts)
    | failed => failed
  | .binary left _ right =>
    match left.visit { counts with binary := counts.binary + 1 } with
    | (.ok leftDepth, counts) =>
      match right.visit counts with
      | (.ok rightDepth, counts) => (.ok (max leftDepth rightDepth + 1), counts)
      | failed => failed
    | failed => failed

/-- Structural equality up to a notion of equality for numbers. -/
def equalsBy (same : Binary64 → Binary64 → Bool) : Sketch → Sketch → Bool
  | .foreign a, .foreign b => a.equalsBy same b
  | .literal a, .literal b => a.equalsBy same b
  | .group a, .group b => equalsBy same a b
  | .unary o a, .unary o' a' => o.equalsBy same o' && equalsBy same a a'
  | .binary a o b, .binary a' o' b' =>
    equalsBy same a a' && o.equalsBy same o' && equalsBy same b b'
  | _, _ => false

end Sketch

end LoxReader
