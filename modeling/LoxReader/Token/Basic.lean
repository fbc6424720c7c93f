import LoxReader.Number.Layout
import LoxReader.Text.Printable
import LoxReader.Text.Quoted
import LoxReader.Token.Kind

/-! # Tokens -/

namespace LoxReader

open Number

/-- What a token carries besides its kind. -/
inductive Payload where
  | number (value : Binary64)
  | text (value : String)
deriving DecidableEq

/-- A token and the source line on which it starts. -/
structure Token where
  kind : TokenKind
  line : Int
  payload : Option Payload := none
deriving DecidableEq

/-- The payload in debug form, with the given characters shown as themselves. -/
def Payload.debugTextWith (shows : Char → Bool) : Payload → List Char
  | .number x => x.shortText
  | .text s => Text.quoted shows s.toList

/-- Equality of payloads up to a notion of equality for numbers. -/
def Payload.equalsBy (same : Binary64 → Binary64 → Bool) : Payload → Payload → Bool
  | .number x, .number y => same x y
  | .text s, .text t => s == t
  | _, _ => false

namespace Token

/-- A number token carries a number, a string or an identifier a text. Any other token may
carry a text, which only its equality and its debug form show. -/
def WellFormed (t : Token) : Prop :=
  match t.kind, t.payload with
  | .number, some (.number _) => True
  | .number, _ => False
  | .string, some (.text _) => True
  | .string, _ => False
  | .identifier, some (.text _) => True
  | .identifier, _ => False
  | _, some (.number _) => False
  | _, _ => True

def display (t : Token) : String :=
  match t.kind, t.payload with
  | .number, some (.number x) => String.ofList x.display
  | .string, some (.text s) => "\"" ++ s ++ "\""
  | .identifier, some (.text s) => s
  | kind, _ => kind.text

/-- The token in debug form: its kind, its payload if it has one, and its line. -/
def debugTextWith (shows : Char → Bool) (t : Token) : String :=
  let payload :=
    match t.payload with
    | some p => ", " ++ String.ofList (p.debugTextWith shows)
    | none => ""
  "Token(" ++ t.kind.name ++ payload ++ ", line=" ++ toString t.line ++ ")"

/-- The debug form in which the printable characters show as themselves. -/
def debugText (t : Token) : String :=
  t.debugTextWith Text.isPrintable

/-- Equality of tokens up to a notion of equality for numbers. -/
def equalsBy (same : Binary64 → Binary64 → Bool) (t u : Token) : Bool :=
  t.kind = u.kind && t.line = u.line &&
    match t.payload, u.payload with
    | some p, some q => p.equalsBy same q
    | none, none => true
    | _, _ => false

/-- Equality of tokens: kind, line and payload agree, numbers compared as numbers. -/
def equals (t u : Token) : Bool :=
  t.equalsBy Binary64.equals u

end Token

end LoxReader
