import DocComment.Environment
import DocComment.Json.Layout
import DocComment.Toml.Document

/-!
Settings: how records are laid out and whether a batch fails fast.

* **Where from.** A file named on the command line, or else the nearest settings file in the
  current directory and those around it, or else the defaults. A named file is never replaced by
  another.
* **What counts.** The file is read, then checked, and only then do the choices made on the
  command line go over it; so they never make a bad file good.
-/

namespace DocComment

/-- The settings of a run. -/
structure Settings where
  pretty : Bool := false
  /-- The number of blanks for each level of indented output. -/
  indent : Nat := 2
  failFast : Bool := false
  /-- The path of the file that the settings are from. -/
  source : Option Text := none
  deriving DecidableEq, Repr, Inhabited

/-- Why there are no settings. -/
inductive SettingsError where
  | notFound (path : Text)
  | unreadable (reason : Text)
  /-- The file is no TOML document, or a setting has a value of the wrong type. -/
  | malformed
  | badIndent
  deriving DecidableEq, Repr

/-- Choices made on the command line. -/
structure Choices where
  pretty : Option Bool := none
  failFast : Option Bool := none
  deriving DecidableEq, Repr

namespace Settings

/-- The name of a settings file. -/
def fileName : Text := "xmldoc.toml".toList

/-- The greatest indentation. -/
def maxIndent : Nat := 8

/-- The wording of an error. What the reader of a malformed file says about the place and the kind
of the mistake would follow in its message; that part is left out. -/
def errorMessage : SettingsError → Text
  | .notFound path => "Configuration file not found: ".toList ++ path
  | .unreadable reason => "I/O error: ".toList ++ reason
  | .malformed => "TOML parse error".toList
  | .badIndent =>
    "Configuration error: output.indent must be between 1 and ".toList ++
      Text.decimal maxIndent

/-! ### From a document -/

/-- The fields of a group of settings. A group may also be written as an array of the fields in
their order, of which the last may be missing and after which anything may follow; a date is a
group without any. -/
def fields? (names : List String) : Toml.Value → Option Toml.Table
  | .table _ entries => some entries
  | .array items => some ((names.map String.toList).zip items)
  | .rows tables => some ((names.map String.toList).zip (tables.map (.table .header)))
  | .dateTime _ => some []
  | _ => none

/-- The fields of a group, if all of them can be used, known or not. -/
def group? (names : List String) (v : Toml.Value) : Option Toml.Table :=
  (fields? names v).filter Toml.entriesAreSound

/-- A field of a group, or its default. -/
def field? {α : Type} (fields : Toml.Table) (name : String) (default : α)
    (read : Toml.Value → Option α) : Option α :=
  match fields.lookup name.toList with
  | none => some default
  | some v => read v

/-- The value of a switch. -/
def switch? : Toml.Value → Option Bool
  | .boolean b => some b
  | _ => none

/-- The greatest count. -/
def maxCount : Int := 0xFFFFFFFFFFFFFFFF

/-- The value of a count. -/
def count? : Toml.Value → Option Nat
  | .integer n => if 0 ≤ n ∧ n ≤ maxCount then some n.toNat else none
  | _ => none

/-- Whether a name is that of a group. -/
def isGroupName (name : Text) : Bool :=
  name == "output".toList || name == "batch".toList

/-- The settings in a document. What it does not set keeps its default, and what is not a
setting is passed over if it is sound. -/
def ofTable? (t : Toml.Table) : Option Settings := do
  guard (Toml.entriesAreSound (t.filter fun e => !isGroupName e.1))
  let output ← field? t "output" [] (group? ["pretty", "indent"])
  let batch ← field? t "batch" [] (group? ["fail_fast"])
  let pretty ← field? output "pretty" false switch?
  let indent ← field? output "indent" 2 count?
  let failFast ← field? batch "fail_fast" false switch?
  return { pretty := pretty, indent := indent, failFast := failFast }

/-- Whether the settings can be used. -/
def isValid (s : Settings) : Bool :=
  1 ≤ s.indent && s.indent ≤ maxIndent

/-- Settings that can be used, or what is wrong with them. -/
def validate (s : Settings) : Except SettingsError Settings :=
  if s.isValid then .ok s else .error .badIndent

/-- The settings in the text of a file. -/
def ofFile (path content : Text) : Except SettingsError Settings :=
  match (Toml.read? content).bind ofTable? with
  | none => .error .malformed
  | some s => validate { s with source := some path }

/-! ### Finding the file -/

/-- The settings under a path that has been looked at. -/
def ofLookup (path : Text) (l : Lookup) : Except SettingsError Settings :=
  match l.content with
  | .ok content => ofFile path content
  | .error reason => .error (.unreadable reason)

section

variable {m : Type → Type} [Monad m]

/-- The nearest settings file, from a directory outwards. -/
def discover (look : Text → m Lookup) : Directory → m (Option (Text × Lookup))
  | [] => do
    let path := Directory.file [] fileName
    let l ← look path
    return if l.isPresent then some (path, l) else none
  | name :: parent => do
    let path := Directory.file (name :: parent) fileName
    let l ← look path
    if l.isPresent then return some (path, l) else discover look parent

/-- The settings before the choices on the command line. -/
def base (e : Environment m) (path : Option Text) : m (Except SettingsError Settings) :=
  match path with
  | some path => do
    let l ← e.look path
    return if l.isPresent then ofLookup path l else .error (.notFound path)
  | none => do
    match ← e.directory with
    | none => return .ok {}
    | some d =>
      match ← discover e.look d with
      | some (path, l) => return ofLookup path l
      | none => return .ok {}

/-- Puts choices over settings. -/
def choose (s : Settings) (c : Choices) : Settings :=
  { s with pretty := c.pretty.getD s.pretty, failFast := c.failFast.getD s.failFast }

/-- Loads the settings of a run. -/
def load (e : Environment m) (path : Option Text) (choices : Option Choices) :
    m (Except SettingsError Settings) := do
  let s ← base e path
  return s.map fun s => (choices.map s.choose).getD s

end

/-- The layout of the output. -/
def layout (s : Settings) : Json.Layout :=
  if s.pretty then .indented s.indent else .compact

end Settings

end DocComment
