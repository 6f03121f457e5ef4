import DocComment.Text.CharClass

/-!
Numerals: natural numbers and integers written with digits.

* **Writing.** `decimal` and `signedDecimal` use as few digits as possible.
* **Reading.** `readDigits` reads digits of a given radix and gives up at the first character
  that is no digit, or as soon as the number passes a bound. `readSigned` reads a decimal
  integer with at most one sign.
-/

namespace DocComment.Text

/-- A natural number in decimal digits. -/
def decimal (n : Nat) : Text :=
  Nat.toDigits 10 n

/-- An integer in decimal digits, with a minus sign if it is negative. -/
def signedDecimal : Int → Text
  | .ofNat n => decimal n
  | .negSucc n => '-' :: decimal (n + 1)

/-- What an ASCII digit or letter stands for in a numeral of the given radix. -/
def digit? (radix : Nat) (c : Char) : Option Nat :=
  let value :=
    if '0' ≤ c ∧ c ≤ '9' then c.toNat - '0'.toNat
    else if 'a' ≤ c ∧ c ≤ 'z' then c.toNat - 'a'.toNat + 10
    else if 'A' ≤ c ∧ c ≤ 'Z' then c.toNat - 'A'.toNat + 10
    else radix
  if value < radix then some value else none

/-- Why digits are not a number. -/
inductive NumeralFault where
  | empty
  | notDigit
  | tooLarge
  deriving DecidableEq, Repr

/-- Reads digits that follow a number already read, up to a greatest number. -/
def readMore (radix bound : Nat) (number : Nat) : Text → Except NumeralFault Nat
  | [] => .ok number
  | c :: t =>
    match digit? radix c with
    | none => .error .notDigit
    | some d =>
      if number * radix + d ≤ bound then readMore radix bound (number * radix + d) t
      else .error .tooLarge

/-- Reads a numeral whose number is not above a bound. -/
def readDigits (radix bound : Nat) : Text → Except NumeralFault Nat
  | [] => .error .empty
  | t => readMore radix bound 0 t

/-- The character with a code, unless the code is a surrogate or beyond the last character. -/
def charOfCode? (code : Nat) : Option Char :=
  if code.isValidChar then some (Char.ofNat code) else none

/-- Whether a text is a run of one or more ASCII decimal digits. -/
def isDigits (t : Text) : Bool :=
  !t.isEmpty && t.all Char.isDigit

/-- The number that decimal digits stand for. -/
def digitsValue (t : Text) : Nat :=
  t.foldl (fun n c => n * 10 + (c.toNat - '0'.toNat)) 0

/-- Reads a decimal integer: at most one sign, then digits. -/
def readSigned : Text → Option Int
  | '-' :: t => if isDigits t then some (-(digitsValue t : Int)) else none
  | '+' :: t => if isDigits t then some (digitsValue t : Int) else none
  | t => if isDigits t then some (digitsValue t : Int) else none

end DocComment.Text
