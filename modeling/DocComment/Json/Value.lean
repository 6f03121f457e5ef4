import DocComment.Text.CharClass

/-!
JSON values. A string is a list of units, because an escape may name one half of a surrogate
pair alone, which is no character. Only a string whose units all pair up is a text
(`Units.text?`).
-/

namespace DocComment.Json

/-- A piece of a string: a character, or a half of a surrogate pair that came as an escape. -/
inductive Unit where
  | char (c : Char)
  | surrogate (code : Nat)
  deriving DecidableEq, Repr, Inhabited

/-- The content of a JSON string. -/
abbrev Units := List Unit

namespace Units

/-- The units of a text: its characters. -/
def ofText (t : Text) : Units :=
  t.map .char

/-- Whether a code is the first half of a surrogate pair. -/
def isHigh (code : Nat) : Bool :=
  0xD800 ≤ code && code ≤ 0xDBFF

/-- Whether a code is the second half of a surrogate pair. -/
def isLow (code : Nat) : Bool :=
  0xDC00 ≤ code && code ≤ 0xDFFF

/-- The character of a surrogate pair. -/
def pair (high low : Nat) : Char :=
  Char.ofNat (0x10000 + (high - 0xD800) * 0x400 + (low - 0xDC00))

/-- The text that a string holds, unless a half of a surrogate pair stands alone in it. -/
def text? : Units → Option Text
  | [] => some []
  | .char c :: rest => (text? rest).map (c :: ·)
  | .surrogate high :: .surrogate low :: rest =>
    if isHigh high && isLow low then (text? rest).map (pair high low :: ·) else none
  | .surrogate _ :: _ => none

/-- The text of a string made from a text is that text. -/
theorem text?_ofText (t : Text) : text? (ofText t) = some t := by
  induction t with
  | nil => rfl
  | cons c t ih =>
    rw [ofText] at ih
    simp [ofText, text?, ih]

end Units

/-- A JSON value. Numbers are kept as they are written. -/
inductive Value where
  | null
  | bool (value : Bool)
  | number (written : Text)
  | string (units : Units)
  | array (items : List Value)
  | object (members : List (Units × Value))
  deriving Repr, Inhabited

namespace Value

/-- The string value of a text. -/
def ofText (t : Text) : Value :=
  .string (.ofText t)

/-- The text of a string value. -/
def text? : Value → Option Text
  | .string units => units.text?
  | _ => none

/-- The members of an object, if all their names are texts. -/
def members? : Value → Option (List (Text × Value))
  | .object members => members.mapM fun m => m.1.text?.map fun name => (name, m.2)
  | _ => none

end Value

end DocComment.Json
