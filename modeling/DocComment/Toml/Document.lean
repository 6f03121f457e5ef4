import DocComment.Toml.Quoted
import DocComment.Toml.Scalar

/-!
Reading a TOML document: a list of lines, each a header or a key with its value, that build up
one table.

* **Nesting** of arrays and of tables in braces is bounded by `maxDepth`, so reading a value
  needs no other bound than the depth that is left. The names of a key are no more than that
  either.
* **Line breaks** and comments may stand between any two parts of what is in brackets or braces,
  but not within a key.
* **Lines** are applied one after another; the first that does not fit what came before makes
  the document invalid.
-/

namespace DocComment.Toml

/-! ### Blanks and comments -/

/-- What follows blanks. -/
def skipBlanks (t : Text) : Option Text :=
  some (t.dropWhile isBlank)

/-- What follows blanks, line breaks and comments. A comment may hold no control characters. -/
def skipLines (inComment : Bool) : Text → Option Text
  | [] => some []
  | '\n' :: t => skipLines false t
  | '\r' :: '\n' :: t => skipLines false t
  | c :: t =>
    if inComment then
      if isLineChar c then skipLines true t else none
    else if isBlank c then skipLines false t
    else if c = '#' then skipLines true t
    else some (c :: t)

/-- What follows the end of a line, before which only blanks and a comment may stand. -/
def endLine (inComment : Bool) : Text → Option Text
  | [] => some []
  | '\n' :: t => some t
  | '\r' :: '\n' :: t => some t
  | c :: t =>
    if inComment then
      if isLineChar c then endLine true t else none
    else if isBlank c then endLine false t
    else if c = '#' then endLine true t
    else none

/-! ### Keys -/

/-- Whether a character can stand in a key without quotes. -/
def isKeyChar (c : Char) : Bool :=
  c.isAlphanum || c == '_' || c == '-'

/-- Reads one name of a key. -/
def readName (t : Text) : Option (Text × Text) :=
  match t with
  | '"' :: rest => Quoted.readLine '"' rest
  | '\'' :: rest => Quoted.readLine '\'' rest
  | _ =>
    let name := t.takeWhile isKeyChar
    if name.isEmpty then none else some (name, t.drop name.length)

/-- A step through the names after the first, each after a dot. -/
def nameStep (t : Text) : Option (Text.Step Text) :=
  match t.dropWhile isBlank with
  | '.' :: rest => (readName (rest.dropWhile isBlank)).map fun r => .more r.1 r.2
  | rest => some (.stop rest)

/-- A key: the names before the last one, and the last one. -/
structure Key where
  names : List Text
  last : Text
  deriving DecidableEq, Repr

/-- The key with a first name and more names. -/
def Key.ofNames (first : Text) : List Text → Key
  | [] => ⟨[], first⟩
  | name :: names =>
    let rest := ofNames name names
    ⟨first :: rest.names, rest.last⟩

/-- All names of a key. -/
def Key.path (k : Key) : List Text :=
  k.names ++ [k.last]

/-- How deep arrays and tables in braces may be nested, and how many names a key may have. -/
def maxDepth : Nat := 80

/-- Reads a key, with the blanks around its dots and after it. -/
def readKey (t : Text) : Option (Key × Text) :=
  (readName t).bind fun first =>
    (Text.collect nameStep first.2).bind fun more =>
      if more.1.length < maxDepth then some (.ofNames first.1 more.1, more.2) else none

/-! ### Values -/

/-- Reads a key, an equals sign and a value. What may stand around the sign is skipped, which can
fail. -/
def readEntry (skip : Text → Option Text) (readValue : Text → Option (Value × Text)) (t : Text) :
    Option ((Key × Value) × Text) :=
  (readKey t).bind fun key =>
    match skip key.2 with
    | some ('=' :: rest) =>
      ((skip rest).bind readValue).map fun value => ((key.1, value.1), value.2)
    | _ => none

/-- A step through parts that are separated by commas, up to a closing character. A comma may
also stand after the last part. -/
def partStep {α : Type} (closing : Char) (readPart : Text → Option (α × Text)) (t : Text) :
    Option (Text.Step α) :=
  (skipLines false t).bind fun body =>
    if body.head? = some closing then some (.stop body.tail)
    else
      (readPart body).bind fun part =>
        (skipLines false part.2).bind fun rest =>
          if rest.head? = some ',' then some (.more part.1 rest.tail)
          else if rest.head? = some closing then some (.more part.1 rest)
          else none

/-- The table of entries in braces. -/
def tableOfEntries (entries : List (Key × Value)) : Option Table :=
  entries.foldlM (fun t e => t.assign e.2 e.1.names e.1.last) []

/-- Reads a value that may nest to a given depth. -/
def readValue : Nat → Text → Option (Value × Text)
  | 0, t =>
    match t with
    | [] => none
    | c :: _ =>
      if Text.isQuote c then (Quoted.read t).map fun r => (.string r.1, r.2) else readWord t
  | depth + 1, t =>
    match t with
    | [] => none
    | c :: rest =>
      if c = '[' then
        (Text.collect (partStep ']' (readValue depth)) rest).map fun r => (.array r.1, r.2)
      else if c = '\x7b' then
        (Text.collect (partStep '\x7d' (readEntry (skipLines false) (readValue depth))) rest).bind
          fun r => (tableOfEntries r.1).map fun entries => (.table .braces entries, r.2)
      else if Text.isQuote c then (Quoted.read t).map fun r => (.string r.1, r.2)
      else readWord t

/-! ### Lines -/

/-- A line that says something. -/
inductive Line where
  | header (key : Key)
  | row (key : Key)
  | entry (key : Key) (value : Value)
  deriving Repr

/-- Reads the key of a header up to its closing brackets. -/
def readHeader (closing t : Text) : Option (Key × Text) :=
  (readKey (t.dropWhile isBlank)).bind fun key =>
    (Text.dropMark? closing key.2).map fun rest => (key.1, rest)

/-- Reads a line without its end. -/
def readLine (t : Text) : Option (Line × Text) :=
  match Text.dropMark? "[[".toList t with
  | some rest => (readHeader "]]".toList rest).map fun r => (.row r.1, r.2)
  | none =>
    match t with
    | '[' :: rest => (readHeader "]".toList rest).map fun r => (.header r.1, r.2)
    | _ =>
      (readEntry skipBlanks (readValue maxDepth) t).map fun r => (.entry r.1.1 r.1.2, r.2)

/-- A step through the lines of a document. -/
def lineStep (t : Text) : Option (Text.Step Line) :=
  (skipLines false t).bind fun body =>
    if body.isEmpty then some (.stop [])
    else
      (readLine body).bind fun line =>
        (endLine false line.2).map fun rest => .more line.1 rest

/-- A document in the making: its table, and the names of the table that entries go to. -/
structure Draft where
  root : Table := []
  current : List Text := []

/-- Applies a line. -/
def Draft.apply (d : Draft) : Line → Option Draft
  | .header key => (d.root.openTable key.names key.last).map fun t => ⟨t, key.path⟩
  | .row key => (d.root.openRow key.names key.last).map fun t => ⟨t, key.path⟩
  | .entry key value =>
    (Table.within (Table.assign value key.names key.last) d.current d.root).map fun t =>
      ⟨t, d.current⟩

/-- Reads a document. A byte order mark at its beginning does not count. -/
def read? (t : Text) : Option Table :=
  let body :=
    match t with
    | '\uFEFF' :: rest => rest
    | _ => t
  (Text.collect lineStep body).bind fun lines =>
    (lines.1.foldlM Draft.apply {}).map Draft.root

end DocComment.Toml
