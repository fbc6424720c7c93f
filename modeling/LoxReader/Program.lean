import LoxReader.CommandLine
import LoxReader.Session

/-! # The program

From a command line to an exit status: the arguments decide whether the program ends at once,
runs a script or prompts. -/

namespace LoxReader

/-- What a call of the program is to do. -/
inductive Task where
  /-- Ends at once with a status, after writing to the output and the error stream. -/
  | exit (status : Nat) (out err : String)
  | script (session : Session) (path : String) (showLog : Bool)
  | prompt (session : Session) (showLog : Bool)

/-- The settings for given options. The environment names the log level, unless the options
ask for everything. -/
def Options.settings (o : Options) (level : Option String) : Settings :=
  let settings := { Settings.ofEnvironment level with explain := o.explain, showTokens := o.tokens }
  if o.verbose then { settings with logLevel := "DEBUG" } else settings

/-- The task that arguments and environment call for. An empty script name counts as none. -/
def Task.ofArguments (texts : List String) (level : Option String) : Task :=
  match Invocation.ofTexts texts with
  | .help => .exit 0 helpText ""
  | .refused e => .exit 2 "" e.report
  | .run o =>
    let settings := o.settings level
    match settings.numericLogLevel with
    | .error e => .exit 2 "" (UsageError.logLevel e).report
    | .ok number =>
      let showLog := decide (number ≤ 10)
      match o.script with
      | none => .prompt { settings } showLog
      | some path =>
        if path.isEmpty then .prompt { settings } showLog
        else .script { settings } path showLog

/-- How a call of the program ended: its status, unless it broke off, and what it wrote. -/
structure Outcome where
  status : Except FileFault Nat
  out : String
  err : String

def Outcome.ofEvents (status : Except FileFault Nat) (showLog : Bool) (events : List Event) :
    Outcome :=
  ⟨status, outputOf events, if showLog then errorsTextWithLogOf events else errorsTextOf events⟩

/-- Runs the program on arguments, the log level of the environment, the text of the standard
input, and a way to open files. -/
def runProgram (texts : List String) (level : Option String) (input : List Char)
    (openFile : String → Except FileError (List UInt8)) : Outcome :=
  match Task.ofArguments texts level with
  | .exit status out err => ⟨.ok status, out, err⟩
  | .script session path showLog =>
    let (status, events, _) := session.runFile path (openFile path)
    .ofEvents status showLog events
  | .prompt session showLog =>
    let (status, events, _) :=
      { session with input := Text.unifyLineEndings input }.runPrompt
    .ofEvents (.ok status) showLog events

end LoxReader
