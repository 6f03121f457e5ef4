/-!
Texts and their sizes, and classes of characters given by ranges of code points. A class is data,
so that membership is a finite test and two classes can be compared range by range.
-/

namespace DocComment

/-- A text is the list of its characters. -/
abbrev Text := List Char

/-- The number of bytes of a text in UTF-8. -/
def Text.byteLength : Text → Nat
  | [] => 0
  | c :: t => c.utf8Size + Text.byteLength t

/-- A set of characters: the ranges of code points in it, both ends included. -/
abbrev CharClass := List (Nat × Nat)

namespace CharClass

/-- Whether a character lies in one of the ranges. -/
def contains (k : CharClass) (c : Char) : Bool :=
  k.any fun r => r.1 ≤ c.toNat && c.toNat ≤ r.2

theorem contains_iff {k : CharClass} {c : Char} :
    k.contains c = true ↔ ∃ r ∈ k, r.1 ≤ c.toNat ∧ c.toNat ≤ r.2 := by
  simp [contains]

end CharClass

end DocComment
