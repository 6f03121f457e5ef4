import DocComment.Text.Space
import DocComment.Text.Alphanumeric

/-!
How fragments of inline text are joined into running text.

* **Laying out a fragment.** `collapse` turns every run of two or more white-space characters
  into one blank, so that source lines become prose; `preserve` keeps the lines and trims each
  of them.
* **The seam.** A fragment that opens with a word character, or an empty one, is set off by a
  blank from a line that has begun; a fragment that opens with punctuation follows directly
  (`separator`).
* **Append only.** `append` leaves what was written before untouched.
-/

namespace DocComment

/-- What happens to the white space inside a fragment. -/
inductive Spacing where
  /-- Runs of white space become single blanks: prose. -/
  | collapse
  /-- Lines are kept, without the white space around each. -/
  | preserve
  deriving DecidableEq, Repr, Inhabited

namespace Spacing

/-! ### Runs of white space -/

/-- The white space read since the last visible character. -/
inductive Gap where
  | empty
  | one (c : Char)
  | many
  deriving DecidableEq, Repr

/-- The gap after one more white-space character. -/
def Gap.push (c : Char) : Gap → Gap
  | .empty => .one c
  | .one _ => .many
  | .many => .many

/-- What is written for a gap: a single character stays what it is, more become a blank. -/
def Gap.text : Gap → Text
  | .empty => []
  | .one c => [c]
  | .many => [' ']

/-- Collapses the runs of a text that continues a gap. -/
def collapseAfter (gap : Gap) : Text → Text
  | [] => gap.text
  | c :: t =>
    if Text.isSpace c then collapseAfter (gap.push c) t
    else gap.text ++ c :: collapseAfter .empty t

/-- Replaces every run of two or more white-space characters by one blank. -/
def collapseRuns (t : Text) : Text :=
  collapseAfter .empty t

/-- Trims every line of a text. -/
def trimLines (t : Text) : Text :=
  Text.unlines ((Text.lines t).map Text.trim)

/-- The layout of a fragment that has no white space in front. -/
def layOut : Spacing → Text → Text
  | collapse, t => Text.trim (collapseRuns t)
  | preserve, t => trimLines t

/-! ### The seam -/

/-- Whether a text opens with punctuation or a symbol. The empty text does not. -/
def opensWithSymbol : Text → Bool
  | [] => false
  | c :: _ => !Text.isWordChar c

/-- Whether a line has begun at the end of a text. -/
def inLine (out : Text) : Bool :=
  match out.getLast? with
  | none => false
  | some c => c != '\n'

/-- What is written between a text and the fragment that follows it. -/
def separator (out fragment : Text) : Text :=
  if inLine out && !opensWithSymbol fragment then [' '] else []

/-! ### Joining -/

/-- Appends a fragment. The white space it begins with is dropped, and an empty fragment still
counts as a word at the seam. -/
def append (s : Spacing) (out fragment : Text) : Text :=
  let body := Text.trimStart fragment
  out ++ separator out body ++ s.layOut body

/-- A fragment on its own, as if appended to nothing. -/
def normalize (s : Spacing) (fragment : Text) : Text :=
  Text.trim (s.append [] fragment)

/-- Nothing that was written is changed. -/
theorem isPrefix_append (s : Spacing) (out fragment : Text) : out <+: s.append out fragment := by
  simp [append, List.append_assoc]

theorem append_nil (s : Spacing) (fragment : Text) :
    s.append [] fragment = s.layOut (Text.trimStart fragment) := by
  simp [append, separator, inLine]

end Spacing

end DocComment
