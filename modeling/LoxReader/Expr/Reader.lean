import LoxReader.Expr.Recovery
import LoxReader.Scan

/-! # A reader of tokens

A token list with a cursor and the errors recorded so far. A caller may read one expression
or all, or skip by hand, in any order. -/

namespace LoxReader

/-- A token list that is being read. -/
structure ExprReader where
  tokens : List Token
  place : Place := {}
  errors : List SyntaxError := []

namespace ExprReader

def remaining (r : ExprReader) : List Token :=
  r.tokens.drop r.place.position

def isAtEnd (r : ExprReader) : Bool :=
  atEnd r.remaining

/-- Reads one expression. An error is given back and not recorded, and the cursor stays where
it arose. -/
def readOne (r : ExprReader) : Except SyntaxError Expr × ExprReader :=
  let reading := readExpr r.place r.remaining
  (reading.result, { r with place := reading.place })

/-- Reads all expressions up to the end and records the errors. -/
def readRest (r : ExprReader) : List Expr × ExprReader :=
  let all := readAll r.place r.remaining
  (all.trees, { r with place := all.place, errors := r.errors ++ all.errors })

/-- Moves the cursor to where reading may resume after an error. -/
def skipAhead (r : ExprReader) : ExprReader :=
  { r with place := { r.place with position := resumeAt r.tokens r.place.position } }

end ExprReader

/-- Why a source has no first expression. -/
inductive ReadError where
  | lexical (failure : ScanFailure LexicalError)
  | ofExpr (error : SyntaxError)

/-- The first expression of a source. What follows it has to consist of tokens but is not
read. -/
def Expr.ofSource (source : String) : Except ReadError Expr :=
  match tokenize source with
  | .error failure => .error (.lexical failure)
  | .ok tokens =>
    match (readExpr {} tokens).result with
    | .ok tree => .ok tree
    | .error e => .error (.ofExpr e)

end LoxReader
