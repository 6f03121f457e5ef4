import DocComment.Json.Value
import DocComment.Text.Numeral

/-!
Writing JSON values. Compact text has no blanks at all; indented text gives each item and each
member a line of its own. In strings only quotation marks, backslashes and control characters
are escaped.
-/

namespace DocComment.Json

/-- How a value is laid out. -/
inductive Layout where
  | compact
  /-- Lines, with this many blanks for each level. -/
  | indented (width : Nat)
  deriving DecidableEq, Repr, Inhabited

/-- What separates the parts of a container that stand at a level. -/
def Layout.lineBreak (l : Layout) (level : Nat) : Text :=
  match l with
  | compact => []
  | indented width => '\n' :: List.replicate (width * level) ' '

/-- What stands between the name of a member and its value. -/
def Layout.colon : Layout → Text
  | compact => [':']
  | indented _ => [':', ' ']

/-! ### Strings -/

/-- A hexadecimal digit in lower case. -/
def hexDigit (n : Nat) : Char :=
  Nat.digitChar (n % 16)

/-- An escape with the four digits of a code. -/
def codeEscape (code : Nat) : Text :=
  ['\\', 'u', hexDigit (code / 4096), hexDigit (code / 256), hexDigit (code / 16), hexDigit code]

/-- A character as it stands in a string. -/
def escaped (c : Char) : Text :=
  if c = '"' then ['\\', '"']
  else if c = '\\' then ['\\', '\\']
  else if c = '\x08' then ['\\', 'b']
  else if c = '\x0C' then ['\\', 'f']
  else if c = '\n' then ['\\', 'n']
  else if c = '\r' then ['\\', 'r']
  else if c = '\t' then ['\\', 't']
  else if c.toNat < 0x20 then codeEscape c.toNat
  else [c]

/-- A unit as it stands in a string. -/
def Unit.written : Unit → Text
  | char c => escaped c
  | surrogate code => codeEscape code

/-- A string between quotation marks. -/
def Units.written (units : Units) : Text :=
  '"' :: units.flatMap Unit.written ++ ['"']

/-! ### Values -/

namespace Value

mutual

/-- The text of a value whose container stands at a level. -/
def written (l : Layout) (level : Nat) : Value → Text
  | .null => "null".toList
  | .bool true => "true".toList
  | .bool false => "false".toList
  | .number digits => digits
  | .string units => units.written
  | .array [] => ['[', ']']
  | .array (v :: vs) =>
    '[' :: l.lineBreak (level + 1) ++ written l (level + 1) v ++ moreItems l (level + 1) vs ++
      l.lineBreak level ++ [']']
  | .object [] => ['\x7b', '\x7d']
  | .object ((name, v) :: ms) =>
    '\x7b' :: l.lineBreak (level + 1) ++ name.written ++ l.colon ++ written l (level + 1) v ++
      moreMembers l (level + 1) ms ++ l.lineBreak level ++ ['\x7d']

/-- The items of an array after the first. -/
def moreItems (l : Layout) (level : Nat) : List Value → Text
  | [] => []
  | v :: vs => ',' :: l.lineBreak level ++ written l level v ++ moreItems l level vs

/-- The members of an object after the first. -/
def moreMembers (l : Layout) (level : Nat) : List (Units × Value) → Text
  | [] => []
  | (name, v) :: ms =>
    ',' :: l.lineBreak level ++ name.written ++ l.colon ++ written l level v ++
      moreMembers l level ms

end

/-- The text of a value as a document, with a line feed at its end. -/
def document (l : Layout) (v : Value) : Text :=
  v.written l 0 ++ ['\n']

end Value

end DocComment.Json
