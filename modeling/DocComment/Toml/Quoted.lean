import DocComment.Text.Collect
import DocComment.Text.Numeral
import DocComment.Text.Split

/-!
The strings of TOML. Between quotation marks escapes count, between apostrophes nothing does;
either mark may be tripled, and the string may then go over several lines.
-/

namespace DocComment.Toml

/-- Blanks within a line. -/
def isBlank (c : Char) : Bool :=
  c == ' ' || c == '\t'

/-- Whether a character may stand unescaped within a line. Of the control characters only the
tab may. -/
def isLineChar (c : Char) : Bool :=
  c == '\t' || (0x20 ≤ c.toNat && c.toNat != 0x7F)

/-- What follows the line break that a text begins with. -/
def dropBreak? : Text → Option Text
  | '\n' :: t => some t
  | '\r' :: '\n' :: t => some t
  | _ => none

namespace Quoted

/-! ### Escapes -/

/-- The character of an escape with one letter. -/
def letterEscape? (c : Char) : Option Char :=
  if c = 'b' then some '\x08'
  else if c = 't' then some '\t'
  else if c = 'n' then some '\n'
  else if c = 'f' then some '\x0C'
  else if c = 'r' then some '\r'
  else if c = 'e' then some '\x1B'
  else if c = '"' then some '"'
  else if c = '\\' then some '\\'
  else none

/-- The number of hexadecimal digits of an escape by code. -/
def codeLength? (c : Char) : Option Nat :=
  if c = 'x' then some 2
  else if c = 'u' then some 4
  else if c = 'U' then some 8
  else none

/-- Reads an escape, given what follows its backslash. -/
def readEscape (t : Text) : Option (Char × Text) :=
  match t with
  | [] => none
  | c :: rest =>
    match codeLength? c with
    | none => (letterEscape? c).map fun e => (e, rest)
    | some n =>
      if (rest.take n).length = n then
        match Text.readDigits 16 0xFFFFFFFF (rest.take n) with
        | .ok code => (Text.charOfCode? code).map fun e => (e, rest.drop n)
        | .error _ => none
      else none

/-! ### Strings on one line -/

/-- A step through a string on one line. -/
def lineStep (mark : Char) (t : Text) : Option (Text.Step Char) :=
  match t with
  | [] => none
  | c :: rest =>
    if c = mark then some (.stop rest)
    else if c = '\\' ∧ mark = '"' then (readEscape rest).map fun r => .more r.1 r.2
    else if isLineChar c then some (.more c rest)
    else none

/-- Reads a string on one line, given what follows its opening mark. -/
def readLine (mark : Char) (t : Text) : Option (Text × Text) :=
  Text.collect (lineStep mark) t

/-! ### Strings over several lines -/

/-- What follows the white space of a text, with its line breaks. -/
def dropSpace (t : Text) : Text :=
  match t with
  | [] => []
  | '\r' :: '\n' :: rest => dropSpace rest
  | c :: rest => if isBlank c || c == '\n' then dropSpace rest else c :: rest

/-- A step through a string over several lines. A backslash at the end of a line joins the next
line that is not blank. Up to two marks at the very end belong to the string. -/
def linesStep (mark : Char) (t : Text) : Option (Text.Step Text) :=
  let marks := (t.takeWhile (· == mark)).length
  if marks = 3 then some (.stop (t.drop 3))
  else if 5 < marks then none
  else if 3 < marks then some (.more (List.replicate (marks - 3) mark) (t.drop (marks - 3)))
  else if 0 < marks then some (.more (List.replicate marks mark) (t.drop marks))
  else
    match t with
    | [] => none
    | c :: rest =>
      if c = '\\' ∧ mark = '"' then
        if (dropBreak? (rest.dropWhile isBlank)).isSome then some (.more [] (dropSpace rest))
        else (readEscape rest).map fun r => .more [r.1] r.2
      else
        match dropBreak? t with
        | some next => some (.more ['\n'] next)
        | none => if isLineChar c then some (.more [c] rest) else none

/-- Reads a string over several lines, given what follows its opening marks. A line break right
there does not count. -/
def readLines (mark : Char) (t : Text) : Option (Text × Text) :=
  (Text.collect (linesStep mark) ((dropBreak? t).getD t)).map fun r => (r.1.flatten, r.2)

/-- Reads a string of any kind. -/
def read (t : Text) : Option (Text × Text) :=
  match Text.dropMark? "\"\"\"".toList t with
  | some rest => readLines '"' rest
  | none =>
    match Text.dropMark? "'''".toList t with
    | some rest => readLines '\'' rest
    | none =>
      match t with
      | '"' :: rest => readLine '"' rest
      | '\'' :: rest => readLine '\'' rest
      | _ => none

end Quoted

end DocComment.Toml
