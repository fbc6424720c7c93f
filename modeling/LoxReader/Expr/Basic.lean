import LoxReader.Expr.Literal

/-! # Expressions -/

namespace LoxReader

/-- An expression tree. Parentheses are kept as nodes, operators as the tokens that stood
for them. -/
inductive Expr where
  | literal (value : Literal)
  | group (inner : Expr)
  | unary (operator : Token) (operand : Expr)
  | binary (left : Expr) (operator : Token) (right : Expr)
deriving DecidableEq

namespace Expr

/-- The canonical rendering: every node in parentheses, tagged with what it is. -/
def render : Expr → String
  | .literal value => "(Literal " ++ value.display ++ ")"
  | .group inner => "(Grouping " ++ inner.render ++ ")"
  | .unary operator operand => "(Unary " ++ operator.display ++ " " ++ operand.render ++ ")"
  | .binary left operator right =>
    "(Binary " ++ operator.display ++ " " ++ left.render ++ " " ++ right.render ++ ")"

/-- The renderings of several trees, one per line. -/
def renderAll (trees : List Expr) : String :=
  "\n".intercalate (trees.map render)

/-- The number of nodes on a longest path from the root to a literal. -/
def depth : Expr → Nat
  | .literal _ => 1
  | .group inner => inner.depth + 1
  | .unary _ operand => operand.depth + 1
  | .binary left _ right => max left.depth right.depth + 1

end Expr

end LoxReader
