import LoxReader.Text.Printable
import LoxReader.Text.Quoted
import LoxReader.Text.Upper

/-! # Settings -/

namespace LoxReader

structure Settings where
  prompt : String := "> "
  logLevel : String := "WARNING"
  explain : Bool := false
  showTokens : Bool := false
deriving DecidableEq

/-- A log level that no name stands for. -/
structure UnknownLogLevel where
  level : String
deriving DecidableEq, Repr

/-- The wording of the error, with the level in quotes. -/
def UnknownLogLevel.message (e : UnknownLogLevel) : String :=
  "Unknown log level: " ++ String.ofList (Text.quoted Text.isPrintable e.level.toList)

/-- The log levels by name. A level shows the records of its own number and above. -/
def logLevels : List (String × Nat) :=
  [("NOTSET", 0), ("DEBUG", 10), ("INFO", 20), ("WARN", 30), ("WARNING", 30), ("ERROR", 40),
    ("CRITICAL", 50), ("FATAL", 50)]

namespace Settings

/-- The settings under an environment that may name a log level. An empty name counts as
none. -/
def ofEnvironment (level : Option String) : Settings :=
  match level with
  | some name => if name.isEmpty then {} else { logLevel := Text.upper name }
  | none => {}

/-- The number of the log level, whatever the case of its name. -/
def numericLogLevel (s : Settings) : Except UnknownLogLevel Nat :=
  match logLevels.lookup (Text.upper s.logLevel) with
  | some number => .ok number
  | none => .error ⟨s.logLevel⟩

end Settings

end LoxReader
