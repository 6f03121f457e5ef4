import DocComment.Json.Value
import DocComment.Text.Numeral
import DocComment.Text.Split

/-!
The tokens of JSON. Blanks between tokens, the spelling of escapes and the form of numbers are
settled here, so that the structure of a value is read from tokens alone.
-/

namespace DocComment.Json

/-- A token. -/
inductive Token where
  | openObject
  | closeObject
  | openArray
  | closeArray
  | colon
  | comma
  | null
  | bool (value : Bool)
  | number (written : Text)
  | string (units : Units)
  deriving DecidableEq, Repr, Inhabited

namespace Token

/-- The white space of JSON. -/
def isBlank (c : Char) : Bool :=
  c == ' ' || c == '\n' || c == '\t' || c == '\r'

/-! ### Strings -/

/-- The character of an escape with one letter. -/
def letterEscape? (c : Char) : Option Char :=
  if c = '"' then some '"'
  else if c = '\\' then some '\\'
  else if c = '/' then some '/'
  else if c = 'b' then some '\x08'
  else if c = 'f' then some '\x0C'
  else if c = 'n' then some '\n'
  else if c = 'r' then some '\r'
  else if c = 't' then some '\t'
  else none

/-- The number of four hexadecimal digits. -/
def hex4? (a b c d : Char) : Option Nat :=
  (Text.readDigits 16 0xFFFF [a, b, c, d]).toOption

/-- The unit with a code below 65536. -/
def unitOf (code : Nat) : Unit :=
  if code.isValidChar then .char (Char.ofNat code) else .surrogate code

/-- Puts a unit in front of what has been read of a string. -/
def withUnit (u : Unit) : Option (Units × Text) → Option (Units × Text) :=
  Option.map fun r => (u :: r.1, r.2)

/-- Reads a string up to its closing quotation mark, and gives what follows. Control characters
have to be escaped. -/
def readString : Text → Option (Units × Text)
  | [] => none
  | '"' :: t => some ([], t)
  | '\\' :: 'u' :: a :: b :: c :: d :: t =>
    match hex4? a b c d with
    | some code => withUnit (unitOf code) (readString t)
    | none => none
  | '\\' :: e :: t =>
    match letterEscape? e with
    | some c => withUnit (.char c) (readString t)
    | none => none
  | c :: t => if c.toNat < 0x20 then none else withUnit (.char c) (readString t)

/-! ### Numbers -/

/-- Drops a run of one or more digits. -/
def dropDigits? (t : Text) : Option Text :=
  match t with
  | c :: _ => if c.isDigit then some (t.dropWhile Char.isDigit) else none
  | [] => none

/-- Drops a whole part: a zero alone, or digits that do not begin with one. -/
def dropWhole? : Text → Option Text
  | '0' :: t => some t
  | t => dropDigits? t

/-- Drops a fraction, if there is one. -/
def dropFraction? : Text → Option Text
  | '.' :: t => dropDigits? t
  | t => some t

/-- Drops the sign of an exponent, if there is one. -/
def dropSign : Text → Text
  | '+' :: t => t
  | '-' :: t => t
  | t => t

/-- Drops an exponent, if there is one. -/
def dropExponent? : Text → Option Text
  | 'e' :: t => dropDigits? (dropSign t)
  | 'E' :: t => dropDigits? (dropSign t)
  | t => some t

/-- Drops a number without its minus sign. -/
def dropUnsigned? (t : Text) : Option Text :=
  (dropWhole? t).bind fun t => (dropFraction? t).bind dropExponent?

/-- What follows a number. -/
def dropNumber? : Text → Option Text
  | '-' :: t => dropUnsigned? t
  | t => dropUnsigned? t

/-- The part of a text that a rest of it has left. -/
def taken (t rest : Text) : Text :=
  t.take (t.length - rest.length)

/-! ### Cutting a text into tokens -/

/-- The tokens of one character. -/
def punctuation? (c : Char) : Option Token :=
  if c = '\x7b' then some openObject
  else if c = '\x7d' then some closeObject
  else if c = '[' then some openArray
  else if c = ']' then some closeArray
  else if c = ':' then some colon
  else if c = ',' then some comma
  else none

/-- The tokens that are words, by their first letters, with the letters that have to follow. -/
def word? (c : Char) : Option (Token × Text) :=
  if c = 'n' then some (null, "ull".toList)
  else if c = 't' then some (bool true, "rue".toList)
  else if c = 'f' then some (bool false, "alse".toList)
  else none

/-- The first token of a text that begins with `c`, which is no white space, and the rest. -/
def next (c : Char) (t : Text) : Option (Token × Text) :=
  match punctuation? c with
  | some token => some (token, t)
  | none =>
    if c = '"' then (readString t).map fun r => (string r.1, r.2)
    else
      match word? c with
      | some (token, letters) => (Text.dropMark? letters t).map fun rest => (token, rest)
      | none => (dropNumber? (c :: t)).map fun rest => (number (taken (c :: t) rest), rest)

/-! ### Every token takes something -/

theorem length_of_withUnit {u : Unit} {r : Option (Units × Text)} {units : Units} {rest t : Text}
    (hr : ∀ units', r = some (units', rest) → rest.length < t.length)
    (h : withUnit u r = some (units, rest)) : rest.length < t.length := by
  rw [withUnit, Option.map_eq_some_iff] at h
  obtain ⟨⟨units', rest'⟩, hr', he⟩ := h
  cases he
  exact hr units' hr'

theorem length_of_readString {t rest : Text} {units : Units}
    (h : readString t = some (units, rest)) : rest.length < t.length := by
  induction t using readString.induct generalizing units with
  | case1 => simp [readString] at h
  | case2 t =>
    simp only [readString, Option.some.injEq, Prod.mk.injEq] at h
    simp [h.2]
  | case3 a b c d t code hc ih =>
    simp only [readString, hc] at h
    have := length_of_withUnit (fun _ => ih) h
    simp only [List.length_cons]
    omega
  | case4 a b c d t hc => simp [readString, hc] at h
  | case5 e t hne c hc ih =>
    rw [readString] at h
    · simp only [hc] at h
      have := length_of_withUnit (fun _ => ih) h
      simp only [List.length_cons]
      omega
    · exact hne
  | case6 e t hne hc =>
    rw [readString] at h
    · simp [hc] at h
    · exact hne
  | case7 c t h1 h2 h3 hlt =>
    rw [readString] at h
    · simp [hlt] at h
    all_goals assumption
  | case8 c t h1 h2 h3 hlt ih =>
    rw [readString] at h
    · simp only [hlt, if_false] at h
      have := length_of_withUnit (fun _ => ih) h
      simp only [List.length_cons]
      omega
    all_goals assumption

theorem length_of_dropDigits? {t rest : Text} (h : dropDigits? t = some rest) :
    rest.length < t.length := by
  unfold dropDigits? at h
  split at h
  · rename_i c t
    split at h
    · rename_i hc
      cases h
      rw [List.dropWhile_cons_of_pos hc]
      have := (List.dropWhile_suffix Char.isDigit (l := t)).length_le
      simp only [List.length_cons]
      omega
    · cases h
  · cases h

theorem length_of_dropWhole? {t rest : Text} (h : dropWhole? t = some rest) :
    rest.length < t.length := by
  unfold dropWhole? at h
  split at h
  · cases h
    simp
  · exact length_of_dropDigits? h

theorem length_of_dropFraction? {t rest : Text} (h : dropFraction? t = some rest) :
    rest.length ≤ t.length := by
  unfold dropFraction? at h
  split at h
  · have := length_of_dropDigits? h
    simp only [List.length_cons]
    omega
  · cases h
    simp

theorem length_dropSign_le (t : Text) : (dropSign t).length ≤ t.length := by
  unfold dropSign
  split <;> simp

theorem length_of_dropExponent? {t rest : Text} (h : dropExponent? t = some rest) :
    rest.length ≤ t.length := by
  unfold dropExponent? at h
  split at h
  · rename_i t
    have h1 := length_of_dropDigits? h
    have h2 := length_dropSign_le t
    simp only [List.length_cons]
    omega
  · rename_i t
    have h1 := length_of_dropDigits? h
    have h2 := length_dropSign_le t
    simp only [List.length_cons]
    omega
  · cases h
    simp

theorem length_of_dropUnsigned? {t rest : Text} (h : dropUnsigned? t = some rest) :
    rest.length < t.length := by
  simp only [dropUnsigned?, Option.bind_eq_some_iff] at h
  obtain ⟨whole, hw, fraction, hf, he⟩ := h
  have h1 := length_of_dropWhole? hw
  have h2 := length_of_dropFraction? hf
  have h3 := length_of_dropExponent? he
  omega

theorem length_of_dropNumber? {t rest : Text} (h : dropNumber? t = some rest) :
    rest.length < t.length := by
  unfold dropNumber? at h
  split at h
  · have := length_of_dropUnsigned? h
    simp only [List.length_cons]
    omega
  · exact length_of_dropUnsigned? h

/-- Each token takes at least one character. -/
theorem length_of_next {c : Char} {t rest : Text} {token : Token}
    (h : next c t = some (token, rest)) : rest.length ≤ t.length := by
  unfold next at h
  split at h
  · cases h
    exact Nat.le_refl _
  · split at h
    · rw [Option.map_eq_some_iff] at h
      obtain ⟨⟨units, r⟩, hr, he⟩ := h
      cases he
      exact Nat.le_of_lt (length_of_readString hr)
    · split at h
      · rw [Option.map_eq_some_iff] at h
        obtain ⟨r, hr, he⟩ := h
        cases he
        have := Text.length_of_dropMark? hr
        omega
      · rw [Option.map_eq_some_iff] at h
        obtain ⟨r, hr, he⟩ := h
        cases he
        have := length_of_dropNumber? hr
        simp only [List.length_cons] at this
        omega

end Token

/-- Cuts a text into tokens. -/
def tokens? (t : Text) : Option (List Token) :=
  match _h : t.dropWhile Token.isBlank with
  | [] => some []
  | c :: body =>
    match _hn : Token.next c body with
    | none => none
    | some (token, rest) => (tokens? rest).map (token :: ·)
termination_by t.length
decreasing_by
  have h1 := (List.dropWhile_suffix Token.isBlank (l := t)).length_le
  have h2 := Token.length_of_next _hn
  rw [_h, List.length_cons] at h1
  omega

end DocComment.Json
