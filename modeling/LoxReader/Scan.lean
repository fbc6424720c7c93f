import LoxReader.Cursor

/-! # Scanning a source

All tokens and all errors of a source, each in source order. -/

namespace LoxReader

/-- What a source consists of: its tokens without the one for the end, its lexical errors,
and the cursor at its end. -/
structure Scan where
  tokens : List Token
  errors : List LexicalError
  stop : Cursor

/-- Why a source has no tokens: its errors, of which there is at least one, together with the
tokens that could be read all the same. -/
structure ScanFailure (ε : Type) where
  errors : List ε
  partialTokens : List Token
  errors_ne_nil : errors ≠ []
deriving DecidableEq

def tokensOf (outcomes : List (Except LexicalError Token)) : List Token :=
  outcomes.filterMap fun
    | .ok token => some token
    | .error _ => none

def errorsOf (outcomes : List (Except LexicalError Token)) : List LexicalError :=
  outcomes.filterMap fun
    | .ok _ => none
    | .error e => some e

@[simp] theorem tokensOf_nil : tokensOf [] = [] := rfl

@[simp] theorem tokensOf_cons_ok (t : Token) (os : List (Except LexicalError Token)) :
    tokensOf (.ok t :: os) = t :: tokensOf os := rfl

@[simp] theorem tokensOf_cons_error (e : LexicalError) (os : List (Except LexicalError Token)) :
    tokensOf (.error e :: os) = tokensOf os := rfl

@[simp] theorem tokensOf_append (os os' : List (Except LexicalError Token)) :
    tokensOf (os ++ os') = tokensOf os ++ tokensOf os' :=
  List.filterMap_append

@[simp] theorem errorsOf_nil : errorsOf [] = [] := rfl

@[simp] theorem errorsOf_cons_ok (t : Token) (os : List (Except LexicalError Token)) :
    errorsOf (.ok t :: os) = errorsOf os := rfl

@[simp] theorem errorsOf_cons_error (e : LexicalError) (os : List (Except LexicalError Token)) :
    errorsOf (.error e :: os) = e :: errorsOf os := rfl

@[simp] theorem errorsOf_append (os os' : List (Except LexicalError Token)) :
    errorsOf (os ++ os') = errorsOf os ++ errorsOf os' :=
  List.filterMap_append

@[simp] theorem tokensOf_map_ok (ts : List Token) : tokensOf (ts.map .ok) = ts := by
  induction ts with
  | nil => rfl
  | cons t ts ih => exact congrArg (t :: ·) ih

@[simp] theorem errorsOf_map_ok (ts : List Token) : errorsOf (ts.map .ok) = [] := by
  induction ts with
  | nil => rfl
  | cons t ts ih => exact ih

@[simp] theorem tokensOf_map_error (es : List LexicalError) : tokensOf (es.map .error) = [] := by
  induction es with
  | nil => rfl
  | cons e es ih => exact ih

@[simp] theorem errorsOf_map_error (es : List LexicalError) : errorsOf (es.map .error) = es := by
  induction es with
  | nil => rfl
  | cons e es ih => exact congrArg (e :: ·) ih

def Token.endOn (line : Int) : Token :=
  ⟨.endOfInput, line, none⟩

def scan (source : List Char) : Scan :=
  let (outcomes, stop) := (Cursor.atStart source).run
  ⟨tokensOf outcomes, errorsOf outcomes, stop⟩

/-- The tokens of a scan, with the token for the end of the input. -/
def Scan.allTokens (s : Scan) : List Token :=
  s.tokens ++ [.endOn s.stop.line]

/-- The tokens of a source. A single lexical error makes it fail, with all of them. -/
def tokenize (source : String) : Except (ScanFailure LexicalError) (List Token) :=
  let s := scan source.toList
  if h : s.errors = [] then .ok s.allTokens else .error ⟨s.errors, s.allTokens, h⟩

namespace ScanFailure

variable {ε : Type}

/-- The failure with given errors, if there are any. -/
def ofErrors? (errors : List ε) (partialTokens : List Token) : Option (ScanFailure ε) :=
  if h : errors = [] then none else some ⟨errors, partialTokens, h⟩

/-- The wording for a failure that would have no errors. -/
def noErrorsMessage : String :=
  "ScanErrors requires at least one error"

/-- The messages of all errors, one per line. -/
def message (wording : ε → String) (f : ScanFailure ε) : String :=
  "\n".intercalate (f.errors.map wording)

def summary (f : ScanFailure ε) : String :=
  toString f.errors.length ++ " lexical error(s)"

end ScanFailure

end LoxReader
