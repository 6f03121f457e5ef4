import DocComment.Text.Split
import DocComment.Xml.Error

/-!
References: names between an ampersand and a semicolon that stand for a character.

* **Five names** are known everywhere (`predefined?`); a name that starts with a number sign
  gives the code of a character, decimal or hexadecimal.
* **In content** (`ofContent`) the code may have a plus sign and may be zero.
* **In attribute values** (`resolve`) both are refused, and faults are reported by their place
  in the value.
-/

namespace DocComment.Xml

namespace Reference

/-- The characters that have a name of their own. -/
def predefined? (name : Text) : Option Char :=
  if name = "lt".toList then some '<'
  else if name = "gt".toList then some '>'
  else if name = "amp".toList then some '&'
  else if name = "apos".toList then some '\''
  else if name = "quot".toList then some '"'
  else none

/-- The greatest code that is read at all. -/
def maxCode : Nat := 0xFFFFFFFF

/-- The radix of a numeral and its digits: after an x the digits are hexadecimal. -/
def radixOf : Text → Nat × Text
  | 'x' :: digits => (16, digits)
  | digits => (10, digits)

/-! ### In content -/

/-- A numeral without a single plus sign in front. -/
def dropPlus : Text → Text
  | '+' :: digits => digits
  | digits => digits

/-- The character of a numeric reference in content. -/
def contentCode? (numeral : Text) : Option Char :=
  let (radix, digits) := radixOf numeral
  match Text.readDigits radix maxCode (dropPlus digits) with
  | .ok code => Text.charOfCode? code
  | .error _ => none

/-- The character that a reference in content stands for. -/
def ofContent (name : Text) : Except Error Char :=
  match predefined? name with
  | some c => .ok c
  | none =>
    match name with
    | '#' :: numeral =>
      match contentCode? numeral with
      | some c => .ok c
      | none => .error (.badCharacterReference name)
    | _ => .error (.unknownEntity name)

/-! ### In attribute values -/

/-- The character of a numeric reference in an attribute value. -/
def attributeCode (numeral : Text) : Except CodeFault Char :=
  let (radix, digits) := radixOf numeral
  match digits with
  | '+' :: _ => .error .signed
  | '-' :: _ => .error .signed
  | _ =>
    match Text.readDigits radix maxCode digits with
    | .error fault => .error (.numeral fault)
    | .ok code =>
      if code = 0 then .error .null
      else
        match Text.charOfCode? code with
        | some c => .ok c
        | none => .error (.notScalar code)

/-- The character of a reference in an attribute value whose name starts at a byte offset. -/
def ofAttribute (start : Nat) (name : Text) : Except EscapeFault Char :=
  match name with
  | '#' :: numeral =>
    match attributeCode numeral with
    | .ok c => .ok c
    | .error fault => .error (.badCode fault)
  | _ =>
    match predefined? name with
    | some c => .ok c
    | none => .error (.unknownEntity start (start + Text.byteLength name) name)

/-- Whether a character can end the name of a reference in an attribute value. -/
def endsName (c : Char) : Bool :=
  c == '&' || c == ';'

/-- Resolves the references in the rest of an attribute value of `size` bytes. -/
def resolveFrom (size : Nat) : Text → Except EscapeFault Text
  | [] => .ok []
  | c :: t =>
    if c = '&' then
      let name := t.takeWhile (!endsName ·)
      match _h : t.dropWhile (!endsName ·) with
      | ';' :: rest =>
        match ofAttribute (size - Text.byteLength t) name with
        | .error fault => .error fault
        | .ok resolved => (resolveFrom size rest).map (resolved :: ·)
      | _ => .error (.unterminated (size - Text.byteLength (c :: t)) size)
    else (resolveFrom size t).map (c :: ·)
termination_by t => t.length
decreasing_by
  · have hle := (List.dropWhile_suffix (!endsName ·) (l := t)).length_le
    rw [_h] at hle
    simp only [List.length_cons] at hle ⊢
    omega
  · simp

/-- An attribute value with its references resolved. -/
def resolve (value : Text) : Except EscapeFault Text :=
  resolveFrom (Text.byteLength value) value

end Reference

end DocComment.Xml
