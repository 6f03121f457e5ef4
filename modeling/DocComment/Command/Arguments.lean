import DocComment.Text.Split

/-!
Reading the arguments of a command line.

* **From left to right.** The first argument that cannot be there makes the line unusable, and
  the first that asks for the version or for help ends the reading.
* **Once.** Each option may be given once for the program and once for its command; a value is
  attached or is the next argument, may not be empty, and may not look like an option unless it
  is attached.
* **Two dashes** end the options of a command; what follows is taken as it stands.
-/

namespace DocComment.Command

/-- What to do with which input. -/
inductive Task where
  /-- Read one comment, from a file or from the input stream. -/
  | parse (file : Option Text)
  /-- Read a file of comments. -/
  | batch (file : Text) (failFast : Bool)
  deriving DecidableEq, Repr

/-- A task and the options that every task has. -/
structure Invocation where
  task : Task
  pretty : Bool := false
  config : Option Text := none
  deriving DecidableEq, Repr

/-- What a command line asks for. -/
inductive Request where
  | run (invocation : Invocation)
  | version
  | help
  deriving DecidableEq, Repr

/-- The kinds of tasks. -/
inductive TaskKind where
  | parse
  | batch
  deriving DecidableEq, Repr

/-- The arguments of a task that have been read. -/
structure Draft where
  verbose : Bool := false
  pretty : Bool := false
  failFast : Bool := false
  config : Option Text := none
  file : Option Text := none
  deriving DecidableEq, Repr

namespace Draft

/-- Notes that more is to be said about the run; not twice. -/
def setVerbose (d : Draft) : Option Draft :=
  if d.verbose then none else some { d with verbose := true }

/-- Asks for indented output; not twice. -/
def setPretty (d : Draft) : Option Draft :=
  if d.pretty then none else some { d with pretty := true }

/-- Asks to stop at the first malformed comment; not twice, and only in a batch. -/
def setFailFast (kind : TaskKind) (d : Draft) : Option Draft :=
  if d.failFast ∨ kind = .parse then none else some { d with failFast := true }

/-- Names the settings file; not twice, and not with an empty name. -/
def setConfig (d : Draft) (path : Text) : Option Draft :=
  if d.config.isSome || path.isEmpty then none else some { d with config := some path }

/-- Names the input file; not twice, and not with an empty name. -/
def setFile (d : Draft) (path : Text) : Option Draft :=
  if d.file.isSome || path.isEmpty then none else some { d with file := some path }

/-- Names input files, of which there can be only one. -/
def setFiles (d : Draft) : List Text → Option Draft
  | [] => some d
  | path :: rest => (d.setFile path).bind fun d => d.setFiles rest

/-- The request, at the end of the arguments. A batch needs a file. -/
def finish (kind : TaskKind) (d : Draft) : Option Request :=
  let ofTask (task : Task) : Request :=
    .run { task := task, pretty := d.pretty, config := d.config }
  match kind with
  | .parse => some (ofTask (.parse d.file))
  | .batch => d.file.map fun file => ofTask (.batch file d.failFast)

end Draft

/-- Whether an argument looks like an option. A dash alone does not. -/
def looksLikeOption (arg : Text) : Bool :=
  arg.head? == some '-' && arg != ['-']

/-- What short options that stand together come to. -/
inductive Cluster where
  | unusable
  | help
  | done (d : Draft)
  /-- The next argument is the path of the settings file. -/
  | needsConfig (d : Draft)

/-- A value that is attached to a short option, with an equals sign or without. -/
def attached : Text → Text
  | '=' :: value => value
  | value => value

/-- Reads short options that stand together. -/
def readCluster (d : Draft) : Text → Cluster
  | [] => .done d
  | c :: rest =>
    if c = 'v' then
      match d.setVerbose with
      | some d => readCluster d rest
      | none => .unusable
    else if c = 'h' then .help
    else if c = 'c' then
      if rest.isEmpty then .needsConfig d
      else
        match d.setConfig (attached rest) with
        | some d => .done d
        | none => .unusable
    else .unusable

/-- What a long option comes to, given what follows its two dashes. -/
def readLong (kind : TaskKind) (d : Draft) (arg : Text) : Cluster :=
  let done (d : Option Draft) : Cluster := (d.map .done).getD .unusable
  match Text.breakOn ['='] arg with
  | some (name, value) =>
    if name = "config".toList then done (d.setConfig value) else .unusable
  | none =>
    if arg = "config".toList then .needsConfig d
    else if arg = "verbose".toList then done d.setVerbose
    else if arg = "pretty".toList then done d.setPretty
    else if arg = "fail-fast".toList then done (d.setFailFast kind)
    else if arg = "help".toList then .help
    else .unusable

/-- Reads an option. -/
def readOption (kind : TaskKind) (d : Draft) (arg : Text) : Cluster :=
  match arg with
  | '-' :: '-' :: long => readLong kind d long
  | _ => readCluster d arg.tail

/-- Reads the arguments of a task. -/
def readTask (kind : TaskKind) (d : Draft) : List Text → Option Request
  | [] => d.finish kind
  | arg :: rest =>
    if arg = "--".toList then (d.setFiles rest).bind (Draft.finish kind)
    else if looksLikeOption arg then
      match readOption kind d arg with
      | .unusable => none
      | .help => some .help
      | .done d => readTask kind d rest
      | .needsConfig d =>
        match rest with
        | [] => none
        | value :: rest =>
          if looksLikeOption value then none
          else
            match d.setConfig value with
            | some d => readTask kind d rest
            | none => none
    else
      match d.setFile arg with
      | some d => readTask kind d rest
      | none => none

/-- Reads short options that stand together before the task: whether they leave the program
verbose, or what they ask for. Nothing if they cannot be there. -/
def readProgramCluster (verbose : Bool) : Text → Option (Bool ⊕ Request)
  | [] => some (.inl verbose)
  | c :: rest =>
    if c = 'v' then if verbose then none else readProgramCluster true rest
    else if c = 'V' then some (.inr .version)
    else if c = 'h' then some (.inr .help)
    else none

/-- Reads an option before the task. -/
def readProgramOption (verbose : Bool) (arg : Text) : Option (Bool ⊕ Request) :=
  match arg with
  | '-' :: '-' :: long =>
    if long = "verbose".toList then if verbose then none else some (.inl true)
    else if long = "version".toList then some (.inr .version)
    else if long = "help".toList then some (.inr .help)
    else none
  | _ => readProgramCluster verbose arg.tail

/-- What is asked for help about has to exist. -/
def readHelp : List Text → Option Request
  | [] => some .help
  | [name] =>
    if name = "parse".toList ∨ name = "batch".toList ∨ name = "help".toList then some .help
    else none
  | _ => none

/-- Reads the arguments after those that have been read. -/
def readProgram (verbose : Bool) : List Text → Option Request
  | [] => none
  | arg :: rest =>
    if looksLikeOption arg then
      match readProgramOption verbose arg with
      | none => none
      | some (.inl verbose) => readProgram verbose rest
      | some (.inr request) => some request
    else if arg = "parse".toList then readTask .parse {} rest
    else if arg = "batch".toList then readTask .batch {} rest
    else if arg = "help".toList then readHelp rest
    else none

/-- What a command line asks for. None: it cannot be used. -/
def readArguments (args : List Text) : Option Request :=
  readProgram false args

end DocComment.Command
