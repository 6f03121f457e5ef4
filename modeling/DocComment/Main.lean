import DocComment.Command.Run

/-!
The program: runs a command line against the machine.

Everything that is decided, is decided in `Command.run`; here only files are read, and what a
run leaves behind is handed out.
-/

namespace DocComment.Machine

/-- Whether a code is that of the error for a name that is too long. Codes may come with their
sign turned. -/
def isNameTooLong (code : UInt32) : Bool :=
  code == 36 || code == 0 - 36

/-- What there is under a path that cannot be read as a file. -/
def lookupOfError : IO.Error → Lookup
  | .noFileOrDirectory _ _ _ => .missing
  | .invalidArgument _ code _ => if isNameTooLong code then .tooLong else .missing
  | .inappropriateType none _ _ => .directory
  | .inappropriateType (some _) _ _ => .blocked
  | e => .unreadable e.toString.toList

/-- Reads the file under a path. -/
def look (path : Text) : IO Lookup := do
  try
    return .file (← IO.FS.readFile (String.ofList path)).toList
  catch e =>
    return lookupOfError e

/-- The current directory, unless it is gone. -/
def directory : IO (Option Directory) := do
  try
    return some (.ofPath (← IO.currentDir).toString.toList)
  catch _ =>
    return none

/-- The whole input stream, or the reason why it cannot be read. -/
def input : IO (Except Text Text) := do
  try
    return .ok (← (← IO.getStdin).readToEnd).toList
  catch e =>
    return .error e.toString.toList

/-- The machine as the surroundings of a command. -/
def environment : Environment IO where
  directory := directory
  look := look
  input := input

end DocComment.Machine

/-- Runs the command line and ends with its exit code. -/
def main (args : List String) : IO UInt32 := do
  let outcome ← DocComment.Command.run DocComment.Machine.environment (args.map String.toList)
  IO.print (String.ofList outcome.output)
  IO.eprint (String.ofList outcome.messages)
  return outcome.exitCode.toUInt32
