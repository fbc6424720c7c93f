import LoxReader.Session

/-! # Directories

A directory that holds files and nothing else, and what opening a path from inside it comes
to. Paths are followed one component after another, so the first component that fails decides
the error. -/

namespace LoxReader

structure Directory where
  files : List (String × List UInt8)

namespace Directory

/-- The most bytes that the name of a file may have. -/
def maxNameBytes : Nat := 255

/-- The number of bytes that a path has to stay below. -/
def maxPathBytes : Nat := 4096

/-- Where following a path has come to: a directory, as many levels above the one at hand as
`above` says, or a file. -/
inductive Stop where
  | directory (above : Nat)
  | file (contents : List UInt8)

/-- Follows one component. Of the directories above the one at hand nothing is known. -/
def enter (d : Directory) (stop : Stop) (component : String) : Except FileError Stop :=
  match stop with
  | .file _ => .error .notDirectory
  | .directory above =>
    if component = "" ∨ component = "." then .ok (.directory above)
    else if component = ".." then .ok (.directory (above + 1))
    else if maxNameBytes < component.utf8ByteSize then .error .nameTooLong
    else if above = 0 then
      match d.files.lookup component with
      | some contents => .ok (.file contents)
      | none => .error .notFound
    else .error .notFound

/-- Follows components from left to right. -/
def follow (d : Directory) (stop : Stop) : List String → Except FileError Stop
  | [] => .ok stop
  | component :: rest =>
    match d.enter stop component with
    | .ok stop => d.follow stop rest
    | .error e => .error e

/-- The contents of the file at a path, or why it cannot be opened. -/
def openFile (d : Directory) (path : String) : Except FileError (List UInt8) :=
  if path.isEmpty then .error .notFound
  else if maxPathBytes ≤ path.utf8ByteSize then .error .nameTooLong
  else
    match d.follow (.directory (if path.startsWith "/" then 1 else 0)) (path.splitOn "/") with
    | .ok (.file contents) => .ok contents
    | .ok (.directory _) => .error .isDirectory
    | .error e => .error e

end Directory

end LoxReader
