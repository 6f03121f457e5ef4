import DocComment.Batch
import DocComment.Command.Arguments
import DocComment.Settings

/-!
Running a command.

* **Order.** Settings first, then the input, then the comments, then the output: so of several
  things that are wrong the first in this order is reported.
* **All or nothing.** Output is written only when nothing can fail any more.
-/

namespace DocComment.Command

/-- What a run leaves behind. The messages are the report of the command or its error. The lines
of the log, which go the same way, and the colours on a terminal are left out. -/
structure Outcome where
  exitCode : Nat
  output : Text := []
  messages : Text := []
  deriving DecidableEq, Repr

/-- Why a command fails. -/
inductive CommandError where
  | settings (error : SettingsError)
  /-- The input cannot be read. -/
  | input (reason : Text)
  /-- The input is no object of comments. -/
  | json
  | comment (error : Xml.Error)
  | failure (failure : Failure)
  deriving DecidableEq, Repr

/-- The wording of an error. Where an input is no object of comments, what the reader of the input
says about the place of the mistake would follow; that part is left out. -/
def CommandError.message : CommandError → Text
  | settings e => Settings.errorMessage e
  | input reason => reason
  | json => "invalid JSON".toList
  | comment e => "malformed documentation comment: ".toList ++ e.message
  | failure f =>
    "malformed documentation comment ".toList ++ Xml.accented f.id ++ ": ".toList ++
      f.error.message

/-- A message on a line of its own. -/
def messageLine (t : Text) : Text :=
  t ++ ['\n']

/-- The outcome of a command that fails. -/
def Outcome.ofError (e : CommandError) : Outcome :=
  { exitCode := 1, messages := messageLine ("Error: ".toList ++ e.message) }

/-- The outcome of a command line that cannot be used. Which argument is wrong, and how, is left
out of the message. -/
def Outcome.unusable : Outcome :=
  { exitCode := 2, messages := messageLine "Error: unusable arguments, try '--help'".toList }

/-- The name and the version of the program. -/
def versionText : Text := "xmldoc 0.1.0".toList

/-- How the program is used. -/
def helpText : Text :=
  "Usage: xmldoc [-v] parse [FILE] [--pretty] [-c PATH]\n".toList ++
    "       xmldoc [-v] batch FILE [--fail-fast] [--pretty] [-c PATH]".toList

/-! ### Reports -/

/-- What is said about a comment that was passed over. -/
def skippedLine (f : Failure) : Text :=
  messageLine ("Skipped ".toList ++ f.id ++ ": ".toList ++ f.error.message)

/-- How many comments there were, and how many of them were malformed, if any. -/
def countLine (comments malformed : Nat) : Text :=
  let parsed := "Parsed ".toList ++ Text.decimal comments ++ " comments".toList
  messageLine
    (if malformed = 0 then parsed
    else parsed ++ ", ".toList ++ Text.decimal malformed ++ " malformed".toList)

/-- What is said about a batch. -/
def report (b : Batch) : Text :=
  b.failures.flatMap skippedLine ++ countLine b.records.size b.failures.length

/-! ### Commands -/

/-- The outcome of reading one comment. -/
def parseOutcome (s : Settings) (input : Text) : Except CommandError Outcome :=
  match Comment.read (some input) with
  | .error e => .error (.comment e)
  | .ok r => .ok { exitCode := 0, output := (Record.optionToJson r).document s.layout }

/-- The outcome of reading a file of comments. -/
def batchOutcome (s : Settings) (input : Text) : Except CommandError Outcome :=
  match (Json.Value.read? input).bind Comments.ofJson? with
  | none => .error .json
  | some comments =>
    match Batch.run s.failFast comments with
    | .error f => .error (.failure f)
    | .ok b => .ok { exitCode := 0, output := b.toJson.document s.layout, messages := report b }

/-- The outcome of a task on its input. -/
def taskOutcome (task : Task) (s : Settings) (input : Text) : Except CommandError Outcome :=
  match task with
  | .parse _ => parseOutcome s input
  | .batch _ _ => batchOutcome s input

/-- The input file of a task. -/
def Task.file? : Task → Option Text
  | .parse file => file
  | .batch file _ => some file

/-- The choices of an invocation. A switch that is not given chooses nothing. -/
def Invocation.choices (i : Invocation) : Choices where
  pretty := if i.pretty then some true else none
  failFast :=
    match i.task with
    | .batch _ true => some true
    | _ => none

/-- Whether a path is a dash, which stands for the input stream. Slashes and dots after it do
not count. -/
def isDash : Text → Bool
  | '-' :: rest => rest.isEmpty || (rest.head? == some '/' && dots rest)
  | _ => false
where
  /-- Whether a text is made of slashes and of single dots after slashes. -/
  dots : Text → Bool
    | [] => true
    | '/' :: '.' :: '/' :: t => dots ('/' :: t)
    | ['/', '.'] => true
    | '/' :: t => dots t
    | _ => false

section

variable {m : Type → Type} [Monad m]

/-- The input of a task: a file, or the input stream if none is named. -/
def readInput (e : Environment m) (file : Option Text) : m (Except Text Text) :=
  match file with
  | none => e.input
  | some path => if isDash path then e.input else do return (← e.look path).content

/-- Runs an invocation. -/
def invoke (e : Environment m) (i : Invocation) : m Outcome := do
  match ← Settings.load e i.config (some i.choices) with
  | .error error => return .ofError (.settings error)
  | .ok s =>
    match ← readInput e i.task.file? with
    | .error reason => return .ofError (.input reason)
    | .ok input =>
      match taskOutcome i.task s input with
      | .error error => return .ofError error
      | .ok outcome => return outcome

/-- Runs a command line. -/
def run (e : Environment m) (args : List Text) : m Outcome :=
  match readArguments args with
  | none => return .unusable
  | some .version => return { exitCode := 0, output := messageLine versionText }
  | some .help => return { exitCode := 0, output := messageLine helpText }
  | some (.run invocation) => invoke e invocation

end

end DocComment.Command
