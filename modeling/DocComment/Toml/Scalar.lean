import DocComment.Toml.Value
import DocComment.Text.Numeral
import DocComment.Text.Split

/-!
The values of TOML that are written as single words: booleans, integers, floating-point numbers,
and dates and times.

* **Faulty and useless.** A word that is no value at all is a fault of the document. A numeral
  that only stands for no number is a value, `Value.numeral`: one too large, a mark of a radix
  without digits, or a decimal numeral that goes astray after a low line.
-/

namespace DocComment.Toml

/-- Digits without the low lines between them. A low line has to stand between two digits. -/
def plainDigits? (isDigit : Char → Bool) : Text → Option Text
  | [] => none
  | [c] => if isDigit c then some [c] else none
  | c :: '_' :: t => if isDigit c then (plainDigits? isDigit t).map (c :: ·) else none
  | c :: t => if isDigit c then (plainDigits? isDigit t).map (c :: ·) else none

/-- Splits off a sign. -/
def splitSign : Text → Bool × Text
  | '-' :: t => (true, t)
  | '+' :: t => (false, t)
  | t => (false, t)

/-! ### Integers -/

/-- The digits of a decimal numeral without a sign. Only zero itself begins with a zero. -/
def decimalDigits? (t : Text) : Option Text :=
  match plainDigits? Char.isDigit t with
  | some ('0' :: _ :: _) => none
  | digits => digits

/-- The numbers that integers can hold at all. -/
def integerRange : Int × Int := (-Nat.pow 2 127, Nat.pow 2 128 - 1)

/-- The value of a numeral for a given number. -/
def ofNumber (written : Text) (number : Int) : Value :=
  if integerRange.1 ≤ number ∧ number ≤ integerRange.2 then .integer number else .numeral written

/-- The number of digits of a given radix. -/
def numberOf (radix : Nat) (digits : Text) : Nat :=
  digits.foldl (fun n c => n * radix + (Text.digit? radix c).getD 0) 0

/-- A numeral of a given radix, given what follows the mark of the radix. -/
def readRadix? (radix : Nat) (t : Text) : Option Value :=
  if t.isEmpty then some (.numeral t)
  else
    (plainDigits? (fun c => (Text.digit? radix c).isSome) t).map fun digits =>
      ofNumber t (numberOf radix digits)

/-- Whether a character is a hexadecimal digit. -/
def isHexDigit (c : Char) : Bool :=
  (Text.digit? 16 c).isSome

/-- Whether each low line stands between two hexadecimal digits. -/
def lowLinesFit : Text → Bool
  | [] => true
  | '_' :: _ => false
  | c :: '_' :: t => isHexDigit c && (t.head?.map isHexDigit).getD false && lowLinesFit t
  | _ :: t => lowLinesFit t

/-- Whether a text without a sign is a decimal numeral up to its first low line and goes astray
after it. All that counts then is that the low lines fit, and that nothing points to a
floating-point number. -/
def goesAstray (t : Text) : Bool :=
  let digits := t.takeWhile Char.isDigit
  let rest := t.drop digits.length
  !digits.isEmpty && digits.head? != some '0' && rest.head? == some '_' &&
    rest.all (fun c => c != '.' && c != 'e' && c != 'E') && lowLinesFit t

/-- A decimal integer. -/
def readDecimal? (t : Text) : Option Value :=
  let (negative, rest) := splitSign t
  match decimalDigits? rest with
  | some digits =>
    let number : Int := Text.digitsValue digits
    some (ofNumber t (if negative then -number else number))
  | none => if goesAstray rest then some (.numeral t) else none

/-- An integer in any of its spellings. -/
def readInteger? : Text → Option Value
  | '0' :: 'x' :: t => readRadix? 16 t
  | '0' :: 'o' :: t => readRadix? 8 t
  | '0' :: 'b' :: t => readRadix? 2 t
  | t => readDecimal? t

/-! ### Floating-point numbers -/

/-- The exponent after its letter. -/
def readExponent? (t : Text) : Option Int :=
  let (negative, rest) := splitSign t
  (plainDigits? Char.isDigit rest).map fun digits =>
    if negative then -(Text.digitsValue digits : Int) else Text.digitsValue digits

/-- Whether a character begins an exponent. -/
def isExponentMark (c : Char) : Bool :=
  c == 'e' || c == 'E'

/-- The least number that rounds to no double. -/
def doubleLimit : Nat := Nat.pow 2 1024 - Nat.pow 2 970

/-- Whether a number, given by its digits and a power of ten, is small enough for a double. -/
def fitsDouble (digits : Text) (exponent : Int) : Bool :=
  let number := Text.digitsValue digits
  number == 0 || exponent + digits.length < 300 ||
    (exponent < 400 &&
      if 0 ≤ exponent then number * Nat.pow 10 exponent.toNat < doubleLimit
      else number < doubleLimit * Nat.pow 10 (-exponent).toNat)

/-- The digits and the power of ten of a floating-point number without a sign. It has a fraction
or an exponent. -/
def floatParts? (t : Text) : Option (Text × Int) :=
  let whole := t.takeWhile fun c => c != '.' && !isExponentMark c
  let rest := t.drop whole.length
  match decimalDigits? whole, rest with
  | some digits, '.' :: more =>
    let fraction := more.takeWhile (!isExponentMark ·)
    match plainDigits? Char.isDigit fraction, more.drop fraction.length with
    | some places, [] => some (digits ++ places, -(places.length : Int))
    | some places, _ :: exponent =>
      (readExponent? exponent).map fun e => (digits ++ places, e - places.length)
    | none, _ => none
  | some digits, _ :: exponent => (readExponent? exponent).map fun e => (digits, e)
  | _, _ => none

/-- A floating-point number. -/
def readFloat? (t : Text) : Option Value :=
  let rest := (splitSign t).2
  if rest = "inf".toList ∨ rest = "nan".toList then some (.float t)
  else
    (floatParts? rest).map fun parts =>
      if fitsDouble parts.1 parts.2 then .float t else .numeral t

/-! ### Dates and times -/

/-- The number of two digits, up to a greatest number. -/
def twoDigits? (greatest : Nat) (a b : Char) : Option Nat :=
  (Text.readDigits 10 greatest [a, b]).toOption

/-- The number of days of a month. -/
def daysIn (year month : Nat) : Nat :=
  if month = 2 then
    if year % 4 = 0 ∧ (year % 100 ≠ 0 ∨ year % 400 = 0) then 29 else 28
  else if month = 4 ∨ month = 6 ∨ month = 9 ∨ month = 11 then 30
  else 31

/-- What follows a date. -/
def dropDate? : Text → Option Text
  | a :: b :: c :: d :: '-' :: e :: f :: '-' :: g :: h :: rest =>
    match Text.readDigits 10 9999 [a, b, c, d], twoDigits? 12 e f, twoDigits? 31 g h with
    | .ok year, some month, some day =>
      if 1 ≤ month ∧ 1 ≤ day ∧ day ≤ daysIn year month then some rest else none
    | _, _, _ => none
  | _ => none

/-- What follows a fraction of a second, if there is one. -/
def dropFraction? : Text → Option Text
  | '.' :: t =>
    if (t.takeWhile Char.isDigit).isEmpty then none else some (t.dropWhile Char.isDigit)
  | t => some t

/-- What follows a time of day. Seconds may be left out. -/
def dropTime? : Text → Option Text
  | a :: b :: ':' :: c :: d :: ':' :: e :: f :: rest =>
    if (twoDigits? 23 a b).isSome && (twoDigits? 59 c d).isSome && (twoDigits? 60 e f).isSome
    then dropFraction? rest
    else none
  | a :: b :: ':' :: c :: d :: rest =>
    if (twoDigits? 23 a b).isSome && (twoDigits? 59 c d).isSome then some rest else none
  | _ => none

/-- Whether a text is an offset from universal time, or nothing. -/
def isOffset : Text → Bool
  | [] => true
  | ['Z'] => true
  | ['z'] => true
  | [sign, a, b, ':', c, d] =>
    (sign == '+' || sign == '-') && (twoDigits? 23 a b).isSome && (twoDigits? 59 c d).isSome
  | _ => false

/-- Whether a text is a date, a time, or both. -/
def isDateTime (t : Text) : Bool :=
  match dropDate? t with
  | some [] => true
  | some (c :: rest) =>
    (c == 'T' || c == 't' || c == ' ') && ((dropTime? rest).map isOffset).getD false
  | none => dropTime? t == some []

/-! ### Words -/

/-- Whether a character ends a word: a blank, a line break, the mark of a comment, or a mark of
structure. -/
def endsWord (c : Char) : Bool :=
  " \t\r\n#=,[]\x7b\x7d".toList.contains c

/-- Whether a character can be part of a word. -/
def isWordChar (c : Char) : Bool :=
  !endsWord c

/-- The value that a word stands for. -/
def ofWord? (t : Text) : Option Value :=
  if t = "true".toList then some (.boolean true)
  else if t = "false".toList then some (.boolean false)
  else
    match readInteger? t, readFloat? t with
    | some v, _ => some v
    | none, some v => some v
    | none, none => if isDateTime t then some (.dateTime t) else none

/-- The word at the front of a text, and the rest. A date may be followed by a blank and a
time. -/
def splitWord (t : Text) : Text × Text :=
  let word := t.takeWhile isWordChar
  match dropDate? word, t.drop word.length with
  | some [], ' ' :: c :: rest =>
    if c.isDigit then
      let time := (c :: rest).takeWhile isWordChar
      (word ++ ' ' :: time, (c :: rest).drop time.length)
    else (word, ' ' :: c :: rest)
  | _, rest => (word, rest)

/-- Reads a value that is a word. -/
def readWord (t : Text) : Option (Value × Text) :=
  let (word, rest) := splitWord t
  (ofWord? word).map fun v => (v, rest)

end DocComment.Toml
