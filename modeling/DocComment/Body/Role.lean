import DocComment.Text.Numeral
import DocComment.Text.Space
import DocComment.Xml.Element

/-!
What the tags in the body of a section stand for, and the kinds of lists. Tags are known by
their local names, so a namespace mark changes nothing.
-/

namespace DocComment

/-- The role of a tag in a body. -/
inductive Role where
  /-- A block on lines of its own. -/
  | block
  | list
  /-- Code within a line. -/
  | code
  /-- A mention of a parameter or a type parameter. -/
  | parameter
  /-- A reference to a declaration. -/
  | see
  /-- A reference that is also listed apart. -/
  | seeAlso
  /-- Anything else: only its text counts. -/
  | plain
  deriving DecidableEq, Repr, Inhabited

/-- The role of a local name. -/
def Role.ofName (name : Text) : Role :=
  if name = "code".toList ∨ name = "para".toList then block
  else if name = "list".toList then list
  else if name = "c".toList then code
  else if name = "paramref".toList ∨ name = "typeparamref".toList then parameter
  else if name = "see".toList then see
  else if name = "seealso".toList then seeAlso
  else plain

/-- The kinds of lists. -/
inductive ListKind where
  | bullet
  | numbered
  /-- Also every list whose kind is not said or not known. -/
  | definition
  deriving DecidableEq, Repr, Inhabited

/-- The kind of the list that a tag opens. -/
def ListKind.ofTag (tag : Xml.Tag) : ListKind :=
  if tag.attributes.get? "type".toList = some "bullet".toList then bullet
  else if tag.attributes.get? "type".toList = some "number".toList then numbered
  else definition

/-- The least and the greatest number a list can be told to start with. -/
def startRange : Int × Int := (-0x80000000, 0x7FFFFFFF)

/-- The number of the first item: what the tag says if that is an integer in range, otherwise
one. -/
def firstNumber (tag : Xml.Tag) : Int :=
  match (tag.attributes.get? "start".toList).bind fun t => Text.readSigned (Text.trim t) with
  | some n => if startRange.1 ≤ n ∧ n ≤ startRange.2 then n else 1
  | none => 1

/-- What stands in front of an item that is marked. -/
def ListKind.marker (kind : ListKind) (number : Int) : Text :=
  match kind with
  | bullet => "* ".toList
  | numbered => Text.signedDecimal number ++ ". ".toList
  | definition => []

/-- The texts of the two parts of an item, if it has them. -/
structure ItemParts where
  term : Option Text
  description : Option Text
  deriving DecidableEq, Repr

namespace ItemParts

/-- Whether the item has neither part. -/
def isAbsent (p : ItemParts) : Bool :=
  p.term.isNone && p.description.isNone

/-- The text of the term, empty if there is none. -/
def termText (p : ItemParts) : Text :=
  p.term.getD []

/-- The text of the description, empty if there is none. -/
def descriptionText (p : ItemParts) : Text :=
  p.description.getD []

/-- The line of a marked item without its marker. An item whose parts are empty shows its own
text instead; after a term the dash stands even when nothing follows. -/
def markedLine (p : ItemParts) (ownText : Text) : Text :=
  if p.termText.isEmpty && p.descriptionText.isEmpty then Text.trim ownText
  else if p.termText.isEmpty then p.descriptionText
  else p.termText ++ " - ".toList ++ p.descriptionText

/-- The line of a definition: its parts that are not empty, with a dash between two. -/
def definitionLine (p : ItemParts) : Text :=
  if p.termText.isEmpty then p.descriptionText
  else if p.descriptionText.isEmpty then p.termText
  else p.termText ++ " — ".toList ++ p.descriptionText

end ItemParts

end DocComment
