import LoxReader.Diagnostic
import LoxReader.Token.Basic

/-! # Errors of expressions -/

namespace LoxReader

/-- What can be wrong with a sequence of tokens. -/
inductive SyntaxError where
  /-- A group opened on `openLine` is not closed where it would have to be. -/
  | unclosedGroup (line openLine : Int)
  /-- A token that starts no operand stands where one has to start. -/
  | notAnOperand (token : Token)
  /-- The tokens end where an operand has to start. -/
  | missingOperand (line : Int)
  /-- A group with nothing in it. -/
  | emptyGroup (line : Int)
  /-- An error in the words of a caller. -/
  | custom (message : String) (line : Int) (help : Option String)
deriving DecidableEq

namespace SyntaxError

def line : SyntaxError → Int
  | .unclosedGroup line _ | .missingOperand line | .emptyGroup line | .custom _ line _ => line
  | .notAnOperand token => token.line

/-- The code of an error, empty for one in the words of a caller. -/
def code : SyntaxError → String
  | .unclosedGroup .. => "P001"
  | .notAnOperand _ => "P002"
  | .missingOperand _ => "P003"
  | .emptyGroup _ => "P004"
  | .custom .. => ""

def codes : List (String × String) :=
  [("P001", "Unterminated parentheses"), ("P002", "Token cannot start an expression"),
    ("P003", "Unexpected end of input"), ("P004", "Empty parenthesized expression")]

def message : SyntaxError → String
  | .unclosedGroup line openLine =>
    "Parser Error: Expecting terminating parentheses at line " ++ toString line ++
      ", unterminated parentheses located at line " ++ toString openLine
  | .notAnOperand token =>
    "Parser Error: Unsupported token " ++ token.display ++ " at line " ++ toString token.line
  | .missingOperand line =>
    "Parser Error: Expecting a token here at line " ++ toString line ++ ", none found."
  | .emptyGroup line =>
    "Parser Error: Empty expressions are illegal, found at line " ++ toString line
  | .custom message _ _ => message

def help : SyntaxError → Option String
  | .unclosedGroup _ openLine =>
    some ("The opening '(' at line " ++ toString openLine ++
      " was never closed; add a closing ')'.")
  | .notAnOperand _ =>
    some "Expressions start with a number, string, true, false, nil, '(', '!' or '-'."
  | .missingOperand _ => some "The input ended in the middle of an expression."
  | .emptyGroup _ => some "Parentheses must contain an expression."
  | .custom _ _ help => help

def diagnostic (e : SyntaxError) : Diagnostic where
  message := e.message
  line := e.line
  code := some e.code
  help := e.help

end SyntaxError

end LoxReader
