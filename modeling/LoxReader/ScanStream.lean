import LoxReader.Scan

/-! # Streams of tokens

Several streams may draw tokens from one source. They share the cursor and the errors: a
stream starts the scan over when it is first advanced, and afterwards goes on from wherever
the shared cursor stands. -/

namespace LoxReader

/-- A source with the cursor and the errors that its streams share. -/
structure SharedScan where
  source : List Char
  cursor : Cursor := .atStart source
  errors : List LexicalError := []

/-- How far a stream has come. One that has given the token for the end is finished for
good. -/
inductive StreamState where
  | fresh | running | finished
deriving DecidableEq, Repr

namespace SharedScan

def restart (s : SharedScan) : SharedScan :=
  { s with cursor := .atStart s.source, errors := [] }

/-- The next token from the shared cursor on; `none` at the end of the source. -/
def advance (s : SharedScan) : Option Token × SharedScan :=
  let (errors, token, cursor) := s.cursor.nextToken
  (token, { s with cursor, errors := s.errors ++ errors })

/-- All tokens from the shared cursor on, the one for the end included. -/
def advanceToEnd (s : SharedScan) : List Token × SharedScan :=
  let (outcomes, stop) := s.cursor.run
  (tokensOf outcomes ++ [.endOn stop.line],
    { s with cursor := stop, errors := s.errors ++ errorsOf outcomes })

/-- The shared state that a stream goes on from. -/
def resume (s : SharedScan) : StreamState → SharedScan
  | .fresh => s.restart
  | _ => s

/-- Advances a stream by one token; a finished one gives none. -/
def next (state : StreamState) (s : SharedScan) : Option Token × StreamState × SharedScan :=
  if state = .finished then (none, .finished, s)
  else
    match (s.resume state).advance with
    | (some token, s) => (some token, .running, s)
    | (none, s) => (some (.endOn s.cursor.line), .finished, s)

def drain (state : StreamState) (s : SharedScan) : List Token × SharedScan :=
  if state = .finished then ([], s)
  else (s.resume state).advanceToEnd

/-- Scans the source from its start, whatever the streams have done. -/
def scanTokens (s : SharedScan) :
    Except (ScanFailure LexicalError) (List Token) × SharedScan :=
  let (tokens, s) := s.restart.advanceToEnd
  (if h : s.errors = [] then .ok tokens else .error ⟨s.errors, tokens, h⟩, s)

end SharedScan

end LoxReader
