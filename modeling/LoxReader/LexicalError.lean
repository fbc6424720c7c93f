import LoxReader.Diagnostic
import LoxReader.Text.Printable

/-! # Lexical errors -/

namespace LoxReader

/-- What can be wrong with the characters of a source. -/
inductive LexicalError where
  /-- A character that starts no lexeme. -/
  | unknownCharacter (char : Char) (line : Int)
  /-- A string without a closing quote; the line is that of its opening quote. -/
  | unterminatedString (line : Int)
  /-- A run of digits, letters and points that is no numeral. -/
  | malformedNumber (run : String) (line : Int)
  /-- An error in the words of a caller. -/
  | custom (message : String) (line : Int) (help : Option String)
deriving DecidableEq

namespace LexicalError

def line : LexicalError → Int
  | .unknownCharacter _ line | .unterminatedString line | .malformedNumber _ line
  | .custom _ line _ => line

/-- The code of an error, empty for one in the words of a caller. -/
def code : LexicalError → String
  | .unknownCharacter .. => "L001"
  | .unterminatedString _ => "L002"
  | .malformedNumber .. => "L003"
  | .custom .. => ""

def codes : List (String × String) :=
  [("L001", "Unrecognised character"), ("L002", "Unterminated string literal"),
    ("L003", "Unparseable numeric literal")]

def message : LexicalError → String
  | .unknownCharacter char line =>
    "Scanner Error: Unrecognised character " ++ String.singleton char ++ " at line " ++
      toString line
  | .unterminatedString line => "Scanner Error: Unterminated string at line " ++ toString line
  | .malformedNumber run line =>
    "Scanner Error: Unparseable digit " ++ run ++ " at line " ++ toString line
  | .custom message _ _ => message

/-- A code point in upper-case hexadecimal, with at least four digits. -/
def codePointText (c : Char) : String :=
  let digits := (Nat.toDigits 16 c.toNat).map Char.toUpper
  String.ofList (List.replicate (4 - digits.length) '0' ++ digits)

def help : LexicalError → Option String
  | .unknownCharacter char _ =>
    if Text.isPrintable char then
      some ("The character '" ++ String.singleton char ++ "' is not valid in Lox source code.")
    else
      some ("Non-printable character (Unicode: U+" ++ codePointText char ++ ") is not allowed.")
  | .unterminatedString _ => some "String literals must be closed with a matching \" quote."
  | .malformedNumber .. =>
    some ("Numbers are digits with an optional fractional part; " ++
      "separate a number from a following name with whitespace.")
  | .custom _ _ help => help

def diagnostic (e : LexicalError) : Diagnostic where
  message := e.message
  line := e.line
  code := some e.code
  help := e.help

end LexicalError

end LoxReader
