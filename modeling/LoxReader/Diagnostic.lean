import LoxReader.Text.Upper

/-! # Diagnostics -/

namespace LoxReader

/-- A description of an error in full. A missing or empty code or help is left out of its
text. -/
structure Diagnostic where
  message : String
  line : Int
  severity : String := "error"
  code : Option String := none
  help : Option String := none
deriving DecidableEq

namespace Diagnostic

/-- The diagnostic over two or three lines: severity and message, the place, the help. -/
def text (d : Diagnostic) : String :=
  let code :=
    match d.code with
    | some c => if c.isEmpty then "" else "[" ++ c ++ "]"
    | none => ""
  let help :=
    match d.help with
    | some h => if h.isEmpty then "" else "  help: " ++ h ++ "\n"
    | none => ""
  Text.upper d.severity ++ code ++ ": " ++ d.message ++ "\n" ++
    "  --> line " ++ toString d.line ++ "\n" ++ help

/-- The report of an error on one line. -/
def report (d : Diagnostic) : String :=
  "[line " ++ toString d.line ++ "] Error: " ++ d.message ++ "\n"

end Diagnostic

end LoxReader
