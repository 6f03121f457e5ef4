import DocComment.Body.Page
import DocComment.Record

/-!
The sections of a comment: the children of its root that have a meaning.

* **Texts.** The first section of each kind gives the text; later ones are not even looked at.
* **Keyed sections** go to a map under the name in their attribute. One without a name, or with
  a blank one, is left out; of two with one name the later counts.
* **See-alsos** are listed, as are those found in the bodies of the other sections, in document
  order.
-/

namespace DocComment

/-- A section that gives a text. -/
inductive TextSection where
  | summary
  | remarks
  | returns
  | value
  | sample
  deriving DecidableEq, Repr

/-- A section that gives an entry of a map. -/
inductive KeyedSection where
  | exceptions
  | params
  | permissions
  | typeParams
  deriving DecidableEq, Repr

/-- A child of the root that has a meaning. -/
inductive Section where
  | text (kind : TextSection)
  | keyed (kind : KeyedSection)
  | seeAlso
  deriving DecidableEq, Repr

/-- The section with a given tag name. Case counts. -/
def Section.ofName? (name : Text) : Option Section :=
  if name = "summary".toList then some (.text .summary)
  else if name = "remarks".toList then some (.text .remarks)
  else if name = "returns".toList then some (.text .returns)
  else if name = "value".toList then some (.text .value)
  else if name = "example".toList then some (.text .sample)
  else if name = "exception".toList then some (.keyed .exceptions)
  else if name = "param".toList then some (.keyed .params)
  else if name = "permission".toList then some (.keyed .permissions)
  else if name = "typeparam".toList then some (.keyed .typeParams)
  else if name = "seealso".toList then some .seeAlso
  else none

/-- The summary is prose; the other texts keep their lines. -/
def TextSection.spacing : TextSection → Spacing
  | summary => .collapse
  | _ => .preserve

/-- The attribute that names what a keyed section is about. -/
def KeyedSection.keyAttribute : KeyedSection → Text
  | exceptions => "cref".toList
  | params => "name".toList
  | permissions => "cref".toList
  | typeParams => "name".toList

namespace Record

/-- The text of a section. -/
def text (r : Record) : TextSection → Text
  | .summary => r.summary
  | .remarks => r.remarks
  | .returns => r.returns
  | .value => r.value
  | .sample => r.sample

/-- Sets the text of a section. -/
def setText (r : Record) (kind : TextSection) (text : Text) : Record :=
  match kind with
  | .summary => { r with summary := text }
  | .remarks => { r with remarks := text }
  | .returns => { r with returns := text }
  | .value => { r with value := text }
  | .sample => { r with sample := text }

/-- The map of a keyed section. -/
def entries (r : Record) : KeyedSection → OrderedMap Text
  | .exceptions => r.exceptions
  | .params => r.params
  | .permissions => r.permissions
  | .typeParams => r.typeParams

/-- Sets an entry in the map of a keyed section. -/
def setEntry (r : Record) (kind : KeyedSection) (key text : Text) : Record :=
  match kind with
  | .exceptions => { r with exceptions := r.exceptions.insert key text }
  | .params => { r with params := r.params.insert key text }
  | .permissions => { r with permissions := r.permissions.insert key text }
  | .typeParams => { r with typeParams := r.typeParams.insert key text }

/-- Sets the see-also references. -/
def setSeeAlsos (r : Record) (seeAlsos : SeeAlsos) : Record :=
  { r with seeAlsos := seeAlsos }

end Record

/-- The key of a keyed section: what its attribute says, unless that is blank. -/
def KeyedSection.key? (kind : KeyedSection) (e : Xml.Element) : Option Text :=
  (e.attribute? kind.keyAttribute).filter fun key => !Text.isBlank key

/-- A record in the making, with the kinds of texts that have been read. -/
structure Extraction where
  record : Record := {}
  textsRead : List TextSection := []

namespace Extraction

/-- Takes in a section. -/
def takeSection (x : Extraction) (e : Xml.Element) : Section → Extraction
  | .text kind =>
    if kind ∈ x.textsRead then x
    else
      let (text, seeAlsos) := Body.render kind.spacing x.record.seeAlsos e
      { record := (x.record.setSeeAlsos seeAlsos).setText kind text,
        textsRead := kind :: x.textsRead }
  | .keyed kind =>
    match kind.key? e with
    | none => x
    | some key =>
      let (text, seeAlsos) := Body.render .preserve x.record.seeAlsos e
      { x with
        record := (x.record.setSeeAlsos seeAlsos).setEntry kind (MemberId.name key) text }
  | .seeAlso =>
    { x with
      record := x.record.setSeeAlsos (Body.registerSeeAlso .preserve x.record.seeAlsos e) }

/-- Takes in a child of the root, if it is a section. -/
def take (x : Extraction) (e : Xml.Element) : Extraction :=
  match Section.ofName? e.tag.name with
  | some kind => x.takeSection e kind
  | none => x

end Extraction

/-- The record of a comment with a given root. -/
def Record.ofRoot (root : Xml.Element) : Record :=
  (root.elements.foldl Extraction.take {}).record

end DocComment
