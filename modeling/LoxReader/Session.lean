import LoxReader.Expr.Reader
import LoxReader.Settings
import LoxReader.Text.LineEnding
import LoxReader.Text.Utf8

/-! # Sessions

A session runs sources one after another. What a run writes is a list of events in the order
in which they happen. -/

namespace LoxReader

inductive Logger where
  | driver | scanner | reader
deriving DecidableEq, Repr

/-- The name of a logger as records show it. -/
def Logger.name : Logger → String
  | .driver => "loxfront.cli"
  | .scanner => "loxfront.lexer.scanner"
  | .reader => "loxfront.parser.parser"

/-- Something a session writes: text for the output, text for the error stream, or a log
record of the lowest level in use. -/
inductive Event where
  | out (text : String)
  | err (text : String)
  | debug (logger : Logger) (message : String)
deriving DecidableEq

/-- The text that events write to the output. -/
def outputOf (events : List Event) : String :=
  String.join (events.map fun
    | .out text => text
    | _ => "")

/-- The text that events write to the error stream, log records left out. -/
def errorsTextOf (events : List Event) : String :=
  String.join (events.map fun
    | .err text => text
    | _ => "")

@[simp] theorem outputOf_nil : outputOf [] = "" := rfl

@[simp] theorem outputOf_append (es es' : List Event) :
    outputOf (es ++ es') = outputOf es ++ outputOf es' := by
  simp [outputOf]

@[simp] theorem outputOf_out (text : String) (es : List Event) :
    outputOf (.out text :: es) = text ++ outputOf es := by
  simp [outputOf]

@[simp] theorem outputOf_err (text : String) (es : List Event) :
    outputOf (.err text :: es) = outputOf es := by
  simp [outputOf]

@[simp] theorem outputOf_debug (logger : Logger) (message : String) (es : List Event) :
    outputOf (.debug logger message :: es) = outputOf es := by
  simp [outputOf]

@[simp] theorem errorsTextOf_nil : errorsTextOf [] = "" := rfl

@[simp] theorem errorsTextOf_append (es es' : List Event) :
    errorsTextOf (es ++ es') = errorsTextOf es ++ errorsTextOf es' := by
  simp [errorsTextOf]

@[simp] theorem errorsTextOf_out (text : String) (es : List Event) :
    errorsTextOf (.out text :: es) = errorsTextOf es := by
  simp [errorsTextOf]

@[simp] theorem errorsTextOf_err (text : String) (es : List Event) :
    errorsTextOf (.err text :: es) = text ++ errorsTextOf es := by
  simp [errorsTextOf]

@[simp] theorem errorsTextOf_debug (logger : Logger) (message : String) (es : List Event) :
    errorsTextOf (.debug logger message :: es) = errorsTextOf es := by
  simp [errorsTextOf]

/-- The text that events write to the error stream, log records included. -/
def errorsTextWithLogOf (events : List Event) : String :=
  String.join (events.map fun
    | .out _ => ""
    | .err text => text
    | .debug logger message => "DEBUG " ++ logger.name ++ ": " ++ message ++ "\n")

def reportEvents (settings : Settings) (d : Diagnostic) : List Event :=
  .err d.report :: if settings.explain then [.err d.text] else []

structure Run where
  events : List Event
  succeeded : Bool

def scanRecords (s : Scan) : List Event :=
  s.errors.map (fun e => .debug .scanner ("Recovered from lexical error: " ++ e.message)) ++
    [.debug .scanner ("Scanned " ++ toString s.allTokens.length ++ " tokens with " ++
      toString s.errors.length ++ " errors")]

def readingRecords (all : BatchReading) : List Event :=
  all.errors.map
      (fun e => .debug .reader ("Synchronizing after syntax error: " ++ e.message)) ++
    [.debug .reader ("Parsed " ++ toString all.trees.length ++ " expressions with " ++
      toString all.errors.length ++ " errors")]

/-- Runs one source. With a lexical error only the lexical errors are reported. Otherwise
the errors of expressions are, and then the trees are written. -/
def runSource (settings : Settings) (source : List Char) : Run :=
  let s := scan source
  if s.errors.isEmpty then
    let all := readAll {} s.allTokens
    let tokenLine : List Event :=
      if settings.showTokens then
        [.out (" ".intercalate (s.allTokens.map (·.display)) ++ "\n")]
      else []
    ⟨scanRecords s ++ tokenLine ++ readingRecords all ++
        all.errors.flatMap (fun e => reportEvents settings e.diagnostic) ++
        all.trees.map (fun tree => .out (tree.render ++ "\n")),
      all.errors.isEmpty⟩
  else
    ⟨scanRecords s ++ s.errors.flatMap (fun e => reportEvents settings e.diagnostic), false⟩

/-- Why the system cannot open a file or read it. -/
inductive FileError where
  | notFound | isDirectory | notDirectory | nameTooLong | denied
  /-- Any other reason, in the words of the system. -/
  | other (reason : String)
deriving DecidableEq, Repr

def FileError.message : FileError → String
  | .notFound => "No such file or directory"
  | .isDirectory => "Is a directory"
  | .notDirectory => "Not a directory"
  | .nameTooLong => "File name too long"
  | .denied => "Permission denied"
  | .other reason => reason

/-- Why running a file breaks off without a status. -/
inductive FileFault where
  /-- The path holds the null character, so it names no file. -/
  | nullInPath
  /-- The file is not UTF-8. -/
  | undecodable (fault : Text.Utf8.Fault)
deriving DecidableEq

def FileFault.message : FileFault → String
  | .nullInPath => "embedded null byte"
  | .undecodable fault => fault.message

/-- A session: its settings, whether an error was reported, and the input that prompts have
not read yet. -/
structure Session where
  settings : Settings := {}
  hadError : Bool := false
  input : List Char := []

namespace Session

def run (s : Session) (source : List Char) : Bool × List Event × Session :=
  let r := runSource s.settings source
  (r.succeeded, r.events, { s with hadError := s.hadError || !r.succeeded })

def report (s : Session) (d : Diagnostic) : List Event × Session :=
  (reportEvents s.settings d, { s with hadError := true })

def status (s : Session) : Nat :=
  if s.hadError then 1 else 0

/-- Runs the file at a path, given what opening it comes to. The text of the file is decoded
as a whole before anything is run. -/
def runFile (s : Session) (path : String) (contents : Except FileError (List UInt8)) :
    Except FileFault Nat × List Event × Session :=
  if Char.ofNat 0 ∈ path.toList then (.error .nullInPath, [], s)
  else
    match contents with
    | .error e => (.ok 1, [.err ("Could not read " ++ path ++ ": " ++ e.message ++ "\n")], s)
    | .ok bytes =>
      match Text.Utf8.decode bytes with
      | .error fault => (.error (.undecodable fault), [], s)
      | .ok text =>
        let source := Text.unifyLineEndings text
        let (_, events, s) := s.run source
        (.ok s.status,
          .debug .driver ("Running " ++ path ++ " (" ++ toString source.length ++
            " characters)") :: events,
          s)

/-- Runs one line of a prompt, its newline included. Errors of a line do not outlast it. -/
def runLine (s : Session) (line : List Char) : List Event × Session :=
  let (_, events, s) := s.run line
  (events, { s with hadError := false })

end Session

/-- The lines of a text, each with its newline. A text that does not end in a newline has a
last line without one. -/
def inputLines (input : List Char) : List (List Char) :=
  match input with
  | [] => []
  | c :: rest =>
    (Text.splitLine (c :: rest)).1 :: inputLines (Text.splitLine (c :: rest)).2
termination_by input.length
decreasing_by exact Text.length_splitLine_snd c rest

namespace Session

/-- Runs lines one after another, each behind a prompt. -/
def runLines (s : Session) : List (List Char) → List Event × Session
  | [] => ([], s)
  | line :: lines =>
    let (events, s') := s.runLine line
    let (later, s') := s'.runLines lines
    (.out s.settings.prompt :: events ++ later, s')

/-- Prompts for lines and runs them until the input ends. -/
def runPrompt (s : Session) : Nat × List Event × Session :=
  let (events, s') := s.runLines (inputLines s.input)
  (0, events ++ [.out s.settings.prompt], { s' with input := [] })

end Session

end LoxReader
