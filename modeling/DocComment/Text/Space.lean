import DocComment.Text.CharClass

/-!
White space, and the trimming and line splitting that depend on it.

* **The class.** `isSpace` is the Unicode property White_Space, 25 code points. The four
  characters that markup itself counts as space are the smaller class `isMarkupSpace`.
* **Trimming.** `trim` drops white space at both ends; `isBlank` says that nothing would be
  left.
* **Lines.** `lines` splits at line feeds only, so a carriage return belongs to its line.
-/

namespace DocComment.Text

/-! ### White space -/

/-- The code points with the Unicode property White_Space. -/
def spaces : CharClass :=
  [(0x09, 0x0D), (0x20, 0x20), (0x85, 0x85), (0xA0, 0xA0), (0x1680, 0x1680),
    (0x2000, 0x200A), (0x2028, 0x2029), (0x202F, 0x202F), (0x205F, 0x205F),
    (0x3000, 0x3000)]

/-- Whether a character is white space. -/
def isSpace (c : Char) : Bool :=
  spaces.contains c

/-- The white space of markup: blank, tab, line feed and carriage return. -/
def isMarkupSpace (c : Char) : Bool :=
  c == ' ' || c == '\t' || c == '\n' || c == '\r'

/-! ### Trimming -/

/-- Whether a text holds nothing but white space. -/
def isBlank (t : Text) : Bool :=
  t.all isSpace

/-- A text without the white space it begins with. -/
def trimStart (t : Text) : Text :=
  t.dropWhile isSpace

/-- A text without the white space it ends with. -/
def trimEnd (t : Text) : Text :=
  (t.reverse.dropWhile isSpace).reverse

/-- A text without the white space at its two ends. -/
def trim (t : Text) : Text :=
  trimEnd (trimStart t)

theorem trimStart_eq_nil_iff {t : Text} : trimStart t = [] ↔ isBlank t = true := by
  induction t with
  | nil => simp [trimStart, isBlank]
  | cons c t ih => by_cases h : isSpace c = true <;> simp_all [trimStart, isBlank]

theorem trimEnd_eq_nil_iff {t : Text} : trimEnd t = [] ↔ isBlank t = true := by
  rw [trimEnd, List.reverse_eq_nil_iff]
  exact trimStart_eq_nil_iff.trans (by simp [isBlank])

/-- Only a blank text is trimmed to nothing. -/
theorem trim_eq_nil_iff {t : Text} : trim t = [] ↔ isBlank t = true := by
  rw [trim, trimEnd_eq_nil_iff]
  induction t with
  | nil => rfl
  | cons c t ih => by_cases h : isSpace c = true <;> simp_all [trimStart, isBlank]

/-! ### Lines -/

/-- The lines of a text: what stands between its line feeds. There is always one. -/
def lines : Text → List Text
  | [] => [[]]
  | c :: t =>
    if c = '\n' then [] :: lines t
    else
      match lines t with
      | [] => [[c]]
      | l :: ls => (c :: l) :: ls

/-- Lines put together again, with a line feed between neighbours. -/
def unlines : List Text → Text
  | [] => []
  | [l] => l
  | l :: ls => l ++ '\n' :: unlines ls

theorem lines_ne_nil (t : Text) : lines t ≠ [] := by
  cases t with
  | nil => simp [lines]
  | cons c t =>
    rw [lines]
    split
    · simp
    · split <;> simp

/-- Splitting loses nothing. -/
theorem unlines_lines (t : Text) : unlines (lines t) = t := by
  induction t with
  | nil => rfl
  | cons c t ih =>
    rw [lines]
    split
    · rename_i h
      cases hl : lines t with
      | nil => exact absurd hl (lines_ne_nil t)
      | cons l ls => rw [unlines, ← hl, ih, h] <;> simp
    · cases hl : lines t with
      | nil => exact absurd hl (lines_ne_nil t)
      | cons l ls =>
        rw [hl] at ih
        cases ls with
        | nil => simpa [unlines] using ih
        | cons m ms => simpa [unlines] using ih

end DocComment.Text
