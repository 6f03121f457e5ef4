import DocComment.Text.Space
import DocComment.Xml.Element
import DocComment.Xml.Reference

/-!
Reading a start tag: a name, then attributes, each a key, an equals sign and a quoted value.

* **Positions.** A fault is reported by its byte offset in the tag. The reader knows the size of
  the whole tag, so the offset of a place is that size less the bytes still to come.
* **Order.** An attribute is checked from left to right: the end of its key, its equals sign, an
  earlier attribute of the same key, its value, and last the references in the value. Only then
  comes the next attribute.
* **Namespaces.** Declarations of namespaces are checked for form and left out; the references
  in their values are not looked at.
-/

namespace DocComment.Xml

namespace Tag

/-- The key of an attribute, its value as written, and what follows it in the tag. -/
structure RawAttribute where
  key : Text
  value : Text
  rest : Text

/-- Whether a character can stand inside the key of an attribute. -/
def inKey (c : Char) : Bool :=
  c != '=' && !Text.isMarkupSpace c

/-- A text without the markup white space it begins with. -/
def skipSpace (t : Text) : Text :=
  t.dropWhile Text.isMarkupSpace

/-- Reads the attribute whose key begins with the character `first` at the front of the rest of a
tag of `size` bytes. `seen` holds the keys before it and their positions. -/
def readAttribute (size : Nat) (seen : List (Text × Nat)) (first : Char) (t : Text) :
    Except Error RawAttribute :=
  let key := first :: t.takeWhile inKey
  let position (rest : Text) : Nat := size - Text.byteLength rest
  match skipSpace (t.dropWhile inKey) with
  | '=' :: afterEquals =>
    match seen.lookup key with
    | some earlier => .error (.badAttribute (position (first :: t)) (.duplicate earlier))
    | none =>
      match skipSpace afterEquals with
      | [] => .error (.badAttribute size .noValue)
      | quote :: body =>
        if Text.isQuote quote then
          match Text.breakOn [quote] body with
          | some (value, rest) => .ok ⟨key, value, rest⟩
          | none => .error (.badAttribute size (.unclosed quote))
        else .error (.badAttribute (position (quote :: body)) .unquoted)
  | rest => .error (.badAttribute (position rest) .noEquals)

theorem length_skipSpace_le (t : Text) : (skipSpace t).length ≤ t.length :=
  (List.dropWhile_suffix _).length_le

/-- An attribute takes up part of the tag. -/
theorem length_of_readAttribute {size : Nat} {seen : List (Text × Nat)} {first : Char} {t : Text}
    {a : RawAttribute} (h : readAttribute size seen first t = .ok a) :
    a.rest.length < t.length := by
  unfold readAttribute at h
  simp only at h
  split at h
  · rename_i afterEquals heq
    have h1 := length_skipSpace_le (t.dropWhile inKey)
    have h2 := (List.dropWhile_suffix inKey (l := t)).length_le
    rw [heq, List.length_cons] at h1
    split at h
    · cases h
    · split at h
      · cases h
      · rename_i quote body hbody
        have h3 := length_skipSpace_le afterEquals
        rw [hbody, List.length_cons] at h3
        split at h
        · split at h
          · rename_i value rest hbreak
            cases h
            have h4 := Text.length_of_breakOn hbreak
            simp only at h4 ⊢
            omega
          · cases h
        · cases h
  · cases h

/-- Whether a key declares a namespace. -/
def declaresNamespace (key : Text) : Bool :=
  key == "xmlns".toList || "xmlns:".toList.isPrefixOf key

/-- Reads the attributes in the rest of a tag of `size` bytes. -/
def readAttributes (size : Nat) (seen : List (Text × Nat)) (t : Text) :
    Except Error (List (Text × Text)) :=
  match _h : skipSpace t with
  | [] => .ok []
  | first :: body =>
    match _ha : readAttribute size seen first body with
    | .error e => .error e
    | .ok a =>
      let seen := (a.key, size - Text.byteLength (first :: body)) :: seen
      if declaresNamespace a.key then readAttributes size seen a.rest
      else
        match Reference.resolve a.value with
        | .error fault => .error (.badEscape fault)
        | .ok value => (readAttributes size seen a.rest).map ((a.key, value) :: ·)
termination_by t.length
decreasing_by
  all_goals
    have h1 := length_skipSpace_le t
    have h2 := length_of_readAttribute _ha
    rw [_h, List.length_cons] at h1
    omega

/-- Reads a tag from what is written between its angle brackets, less the slash of a tag that
closes itself. -/
def read (selfClosing : Bool) (source : Text) : Except Error Tag :=
  let name := source.takeWhile (!Text.isMarkupSpace ·)
  let rest := source.dropWhile (!Text.isMarkupSpace ·)
  (readAttributes (Text.byteLength source) [] rest).map fun entries =>
    { name := name, attributes := Attributes.ofList entries, selfClosing := selfClosing }

end Tag

end DocComment.Xml
