import DocComment.Body.Role
import DocComment.MemberId
import DocComment.OrderedMap
import DocComment.Spacing

/-!
Writing the body of a section as plain text.

* **The page.** Writing takes a `Page`, the text so far and the see-also references found so
  far, and gives the page after it. Inner bodies are written on a fresh page that shares the
  references.
* **Blocks and lists** stand on lines of their own; everything else is joined to the line by the
  rules of spacing.
* **References.** A see-also is listed under its name as soon as its own body has been written,
  so the list follows the order in which the references end.
-/

namespace DocComment

/-- The see-also references: displayed texts by the names of declarations. -/
abbrev SeeAlsos := OrderedMap Text

/-- What has been written so far. -/
structure Page where
  text : Text := []
  seeAlsos : SeeAlsos := .empty
  deriving Inhabited

namespace Page

/-- Joins a fragment to the text. -/
def inline (p : Page) (s : Spacing) (fragment : Text) : Page :=
  { p with text := s.append p.text fragment }

/-- Ends the line that has begun, if one has. -/
def endLine (text : Text) : Text :=
  if Spacing.inLine text then text ++ ['\n'] else text

/-- A text that ends with a line feed, which is added if need be. -/
def withLineFeed (text : Text) : Text :=
  if text.getLast? = some '\n' then text else text ++ ['\n']

/-- Writes a finished body on lines of its own. The references are those after that body. -/
def block (p : Page) (body : Page) : Page :=
  { text := withLineFeed (endLine p.text ++ Text.trim body.text), seeAlsos := body.seeAlsos }

/-- Writes a line with a line feed at its end. The references are those after that line. -/
def line (p : Page) (text : Text) (seeAlsos : SeeAlsos) : Page :=
  { text := p.text ++ text ++ ['\n'], seeAlsos := seeAlsos }

end Page

namespace Body

/-- The name of the declaration in an attribute; nothing if the tag does not have it. -/
def nameIn (tag : Xml.Tag) (key : String) : Text :=
  MemberId.name ((tag.attributes.get? key.toList).getD [])

/-- The key of a see-also. -/
def seeAlsoKey (tag : Xml.Tag) : Text :=
  nameIn tag "cref"

/-- What is shown for a see-also with a given body: the body, or the key if the body is empty. -/
def seeAlsoDisplay (s : Spacing) (tag : Xml.Tag) (body : Text) : Text :=
  let shown := s.normalize (Text.trim body)
  if shown.isEmpty then seeAlsoKey tag else shown

/-- Lists a see-also whose body has been written. -/
def listSeeAlso (s : Spacing) (tag : Xml.Tag) (body : Page) : SeeAlsos :=
  body.seeAlsos.insert (seeAlsoKey tag) (seeAlsoDisplay s tag body.text)

open Xml in
mutual

/-- Writes one piece of content. Blank text between tags is nothing. -/
def writeNode (s : Spacing) (p : Page) : Node → Page
  | .text t => if Text.isBlank t then p else p.inline s t
  | .element tag content =>
    match Role.ofName tag.localName with
    | .block => p.block (writeContent .preserve { seeAlsos := p.seeAlsos } content)
    | .list =>
      writeItems (ListKind.ofTag tag) (firstNumber tag) { p with text := p.text ++ ['\n'] } content
    | .code => p.inline .preserve (textOf content)
    | .parameter => p.inline s (nameIn tag "name")
    | .see => p.inline s (if content.isEmpty then nameIn tag "cref" else textOf content)
    | .seeAlso =>
      let body := writeContent s { seeAlsos := p.seeAlsos } content
      { p with seeAlsos := listSeeAlso s tag body }.inline s (seeAlsoDisplay s tag body.text)
    | .plain => p.inline s (textOf content)

/-- Writes a content, piece by piece. -/
def writeContent (s : Spacing) (p : Page) : List Node → Page
  | [] => p
  | n :: ns => writeContent s (writeNode s p n) ns

/-- Writes the items of a list, each on a line of its own; `number` is the number of the next
item. Whatever is not an item is passed over. -/
def writeItems (kind : ListKind) (number : Int) (p : Page) : List Node → Page
  | [] => p
  | .text _ :: ns => writeItems kind number p ns
  | .element tag content :: ns =>
    if tag.name = "item".toList then
      let (term, afterTerm) := writePart "term" p.seeAlsos content
      let (description, afterParts) := writePart "description" afterTerm content
      let parts : ItemParts := ⟨term, description⟩
      let written :=
        match kind with
        | .definition =>
          if parts.isAbsent then
            let body := writeContent .preserve { seeAlsos := afterParts } content
            p.line (Text.trim body.text) body.seeAlsos
          else p.line parts.definitionLine afterParts
        | marked =>
          p.line (marked.marker number ++ parts.markedLine (textOf content)) afterParts
      writeItems kind (number + 1) written ns
    else writeItems kind number p ns

/-- The text of the first element with a given name, if there is one, and the references after
it. -/
def writePart (name : String) (seeAlsos : SeeAlsos) : List Node → Option Text × SeeAlsos
  | [] => (none, seeAlsos)
  | .text _ :: ns => writePart name seeAlsos ns
  | .element tag content :: ns =>
    if tag.name = name.toList then
      let body := writeContent .preserve { seeAlsos := seeAlsos } content
      (some (Text.trim body.text), body.seeAlsos)
    else writePart name seeAlsos ns

end

/-- The text of an element's body, and the references after it. -/
def render (s : Spacing) (seeAlsos : SeeAlsos) (e : Xml.Element) : Text × SeeAlsos :=
  let body := writeContent s { seeAlsos := seeAlsos } e.content
  (Text.trim body.text, body.seeAlsos)

/-- Lists an element that is a see-also, after what its body lists. -/
def registerSeeAlso (s : Spacing) (seeAlsos : SeeAlsos) (e : Xml.Element) : SeeAlsos :=
  listSeeAlso s e.tag (writeContent s { seeAlsos := seeAlsos } e.content)

end Body

end DocComment
