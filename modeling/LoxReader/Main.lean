import LoxReader.About
import LoxReader.Program

/-! # The executable

Reads files, lines and the environment, and writes what a session comes to. -/

namespace LoxReader

/-- The reason why the system could not open a file. A directory can be opened but not read,
and the error of reading names no file. -/
def FileError.ofSystem : IO.Error → FileError
  | .permissionDenied .. => .denied
  | .inappropriateType none .. => .isDirectory
  | .inappropriateType .. => .notDirectory
  | .invalidArgument .. => .nameTooLong
  | .otherError _ reason | .resourceExhausted _ _ reason | .hardwareFault _ reason => .other reason
  | _ => .notFound

def openSystemFile (path : String) : IO (Except FileError (List UInt8)) := do
  try
    let bytes ← IO.FS.readBinFile path
    return .ok bytes.toList
  catch e => return .error (.ofSystem e)

/-- Writes events in order, log records only if they are wanted. -/
def writeEvents (showLog : Bool) (events : List Event) : IO Unit := do
  let out ← IO.getStdout
  let err ← IO.getStderr
  for event in events do
    match event with
    | .out text => out.putStr text
    | .err _ => err.putStr (errorsTextOf [event])
    | .debug .. => if showLog then err.putStr (errorsTextWithLogOf [event])
  out.flush

/-- Prompts, reads a line and runs it until the input ends. -/
partial def promptLoop (showLog : Bool) (session : Session) : IO Unit := do
  writeEvents showLog [.out session.settings.prompt]
  let line ← (← IO.getStdin).getLine
  unless line.isEmpty do
    let (events, session) := session.runLine (Text.unifyLineEndings line.toList)
    writeEvents showLog events
    promptLoop showLog session

end LoxReader

open LoxReader in
def main (arguments : List String) : IO UInt32 := do
  match Task.ofArguments arguments (← IO.getEnv "LOX_LOG_LEVEL") with
  | .exit status out err =>
    writeEvents false [.out out, .err err]
    return status.toUInt32
  | .script session path showLog =>
    let (status, events, _) := session.runFile path (← openSystemFile path)
    writeEvents showLog events
    match status with
    | .ok status => return status.toUInt32
    | .error fault =>
      writeEvents false [.err (fault.message ++ "\n")]
      return 1
  | .prompt session showLog =>
    promptLoop showLog session
    return 0
