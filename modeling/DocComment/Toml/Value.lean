import DocComment.Text.CharClass

/-!
The values of a settings document in TOML, and the tables they stand in.

* **Tables remember how they came about**, because that decides who may add to them: a header
  opens a table once, dotted keys add to tables that dotted keys have made, and a table written
  in braces is closed.
* **Numerals without a number.** A numeral may be too large for any number, or be a number only
  at a first glance. A document may hold it, but whoever looks at it finds it faulty:
  `Value.isSound`.
* **Two ways to add.** `Table.assign` puts a value under a dotted key; `Table.within` goes down
  the names of a header, and into the last row where it meets an array of tables.
-/

namespace DocComment.Toml

/-- How a table came about. -/
inductive Origin where
  /-- Opened by a header of its own. -/
  | header
  /-- Named on the way to another table by a header. -/
  | implied
  /-- Named on the way to a value by a dotted key. -/
  | dotted
  /-- Written in braces. -/
  | braces
  deriving DecidableEq, Repr

/-- A value. -/
inductive Value where
  | string (text : Text)
  | integer (number : Int)
  | float (written : Text)
  /-- A numeral that stands for no number that can be held. -/
  | numeral (written : Text)
  | boolean (value : Bool)
  | dateTime (written : Text)
  | array (items : List Value)
  | table (origin : Origin) (entries : List (Text × Value))
  /-- An array of tables, one for each header in double brackets. -/
  | rows (tables : List (List (Text × Value)))
  deriving Repr

mutual

/-- Whether every numeral in a value stands for a number. -/
def Value.isSound : Value → Bool
  | .numeral _ => false
  | .array items => areSound items
  | .table _ entries => entriesAreSound entries
  | .rows tables => rowsAreSound tables
  | _ => true

/-- Whether every numeral in some values stands for a number. -/
def areSound : List Value → Bool
  | [] => true
  | v :: vs => v.isSound && areSound vs

/-- Whether every numeral in some entries stands for a number. -/
def entriesAreSound : List (Text × Value) → Bool
  | [] => true
  | (_, v) :: es => v.isSound && entriesAreSound es

/-- Whether every numeral in an array of tables stands for a number. -/
def rowsAreSound : List (List (Text × Value)) → Bool
  | [] => true
  | t :: ts => entriesAreSound t && rowsAreSound ts

end

/-- The entries of a table. -/
abbrev Table := List (Text × Value)

namespace Table

/-- Changes the value under a key, or adds one at the end. The change may be refused. -/
def alter (key : Text) (change : Option Value → Option Value) : Table → Option Table
  | [] => (change none).map fun v => [(key, v)]
  | (k, v) :: rest =>
    if k = key then (change (some v)).map fun w => (k, w) :: rest
    else (alter key change rest).map ((k, v) :: ·)

/-- Adds a value under a key that is not there yet. -/
def add (key : Text) (value : Value) (t : Table) : Option Table :=
  alter key (fun old => if old.isNone then some value else none) t

/-- Changes the last of the tables. -/
def alterLast (change : Table → Option Table) : List Table → Option (List Table)
  | [] => none
  | [t] => (change t).map fun u => [u]
  | t :: ts => (alterLast change ts).map (t :: ·)

/-- Puts a value under a dotted key: the names before the last one, and the last one. Each name
before the last has to belong to a table that no header has opened. The last of these tables is
then one that dotted keys have made, even if it had only been implied before. -/
def assign (value : Value) : List Text → Text → Table → Option Table
  | [], key, t => add key value t
  | name :: names, key, t =>
    alter name (fun
      | none => (assign value names key []).map (.table .dotted)
      | some (.table .dotted entries) =>
        (assign value names key entries).map (.table .dotted)
      | some (.table .implied entries) =>
        (assign value names key entries).map
          (.table (if names.isEmpty then .dotted else .implied))
      | some (.rows tables) =>
        if names.isEmpty then none
        else (alterLast (assign value names key) tables).map .rows
      | some _ => none) t

/-- Goes down the names of a header and changes the table found there. Tables that are missing
are added on the way. -/
def within (change : Table → Option Table) : List Text → Table → Option Table
  | [], t => change t
  | name :: names, t =>
    alter name (fun
      | none => (within change names []).map (.table .implied)
      | some (.table .braces _) => none
      | some (.table origin entries) => (within change names entries).map (.table origin)
      | some (.rows tables) => (alterLast (within change names) tables).map .rows
      | some _ => none) t

/-- Opens a table by its header. It may have been implied before, but not more. -/
def openTable (names : List Text) (key : Text) (t : Table) : Option Table :=
  within (alter key fun
    | none => some (.table .header [])
    | some (.table .implied entries) => some (.table .header entries)
    | some _ => none) names t

/-- Adds a row to an array of tables by its header. -/
def openRow (names : List Text) (key : Text) (t : Table) : Option Table :=
  within (alter key fun
    | none => some (.rows [[]])
    | some (.rows tables) => some (.rows (tables ++ [[]]))
    | some _ => none) names t

end Table

end DocComment.Toml
