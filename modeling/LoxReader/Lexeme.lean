import LoxReader.LexicalError
import LoxReader.Number.Numeral
import LoxReader.Text.Blank
import LoxReader.Text.Letter
import LoxReader.Token.Basic

/-! # Lexemes

A source is a sequence of lexemes with gaps between them. A gap holds blanks and comments, a
lexeme is the longest of its class at its place. Well-formed lexemes become tokens, the
others lexical errors. -/

namespace LoxReader

open Number Text

/-- Splits off the longest gap at the front of a text. A comment runs from two slashes to the
end of its line; `inComment` says that the text starts inside one. -/
def splitGap (inComment : Bool) : List Char → List Char × List Char
  | [] => ([], [])
  | c :: rest =>
    if inComment then
      let (gap, rest) := splitGap (c != '\n') rest
      (c :: gap, rest)
    else if isBlank c then
      let (gap, rest) := splitGap false rest
      (c :: gap, rest)
    else if c = '/' ∧ rest.head? = some '/' then
      let (gap, rest) := splitGap true rest
      (c :: gap, rest)
    else ([], c :: rest)

/-- The characters that continue a run started by a digit. Letters belong to it, so a number
and a name that touch are one malformed number. -/
def continuesNumber (c : Char) : Bool :=
  c.isDigit || c = '.' || isLetter c

def startsWord (c : Char) : Bool :=
  isLetter c || c = '_'

def continuesWord (c : Char) : Bool :=
  startsWord c || c.isDigit

/-- A lexeme, well-formed or not. -/
inductive Lexeme where
  | symbol (kind : TokenKind)
  | string (body : List Char)
  | openString (body : List Char)
  | number (run : List Char)
  | word (letters : List Char)
  | stray (char : Char)
deriving DecidableEq

namespace Lexeme

def text : Lexeme → List Char
  | .symbol kind => kind.text.toList
  | .string body => doubleQuote :: body ++ [doubleQuote]
  | .openString body => doubleQuote :: body
  | .number run => run
  | .word letters => letters
  | .stray char => [char]

/-- Splits off the lexeme that starts with a given character. -/
def split (first : Char) (rest : List Char) : Lexeme × List Char :=
  match TokenKind.singles.lookup first with
  | some kind => (.symbol kind, rest)
  | none =>
    match TokenKind.compounds.lookup first with
    | some (alone, withEqual) =>
      match rest with
      | '=' :: rest => (.symbol withEqual, rest)
      | rest => (.symbol alone, rest)
    | none =>
      if first = doubleQuote then
        let body := rest.takeWhile (· != doubleQuote)
        match rest.dropWhile (· != doubleQuote) with
        | [] => (.openString body, [])
        | _ :: rest => (.string body, rest)
      else if first.isDigit then
        (.number (first :: rest.takeWhile continuesNumber), rest.dropWhile continuesNumber)
      else if startsWord first then
        (.word (first :: rest.takeWhile continuesWord), rest.dropWhile continuesWord)
      else (.stray first, rest)

/-- The token of a lexeme on a given line, or the error that it is. -/
def outcome (line : Int) : Lexeme → Except LexicalError Token
  | .symbol kind => .ok ⟨kind, line, none⟩
  | .string body => .ok ⟨.string, line, some (.text (String.ofList body))⟩
  | .openString _ => .error (.unterminatedString line)
  | .number run =>
    match Numeral.read? run with
    | some numeral => .ok ⟨.number, line, some (.number numeral.toDecimal.toBinary64)⟩
    | none => .error (.malformedNumber (String.ofList run) line)
  | .word letters =>
    let word := String.ofList letters
    match TokenKind.keyword? word with
    | some kind => .ok ⟨kind, line, none⟩
    | none => .ok ⟨.identifier, line, some (.text word)⟩
  | .stray char => .error (.unknownCharacter char line)

end Lexeme

end LoxReader
