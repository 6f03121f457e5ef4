import DocComment.Xml.Attributes

/-!
Element trees. An element is a tag with content, and content is a list of nodes, each a text or
an element.

* **Looking.** Child elements in document order, by exact name, and `textOf`, the text of a
  content with all markup taken out.
* **Growing.** `appendText` joins a text to the text that content ends with, so two texts never
  stand side by side.
-/

namespace DocComment.Xml

/-- A tag: what is written between the angle brackets. -/
structure Tag where
  /-- The name as written, with its namespace mark if it has one. -/
  name : Text
  attributes : Attributes := .empty
  /-- Whether the tag closes itself, as in a line break written with a slash. -/
  selfClosing : Bool := false
  deriving DecidableEq, Repr, Inhabited

/-- The name after the last colon. -/
def Tag.localName (tag : Tag) : Text :=
  (tag.name.reverse.takeWhile (· != ':')).reverse

/-- A piece of content. -/
inductive Node where
  | text (text : Text)
  | element (tag : Tag) (content : List Node)
  deriving Repr, Inhabited

/-- A tag and what stands between it and its end. -/
structure Element where
  tag : Tag
  content : List Node := []
  deriving Repr, Inhabited

/-! ### Looking at content -/

/-- The element that a node is. -/
def Node.element? : Node → Option Element
  | .text _ => none
  | .element tag content => some ⟨tag, content⟩

mutual

/-- The text of a node without its markup. -/
def Node.textOf : Node → Text
  | .text t => t
  | .element _ content => textOf content

/-- The text of a content without its markup. -/
def textOf : List Node → Text
  | [] => []
  | n :: ns => n.textOf ++ textOf ns

end

namespace Element

/-- An element without attributes and content. -/
def named (name : Text) : Element :=
  { tag := { name := name } }

/-- The element as a piece of content. -/
def toNode (e : Element) : Node :=
  .element e.tag e.content

/-- The value of an attribute. -/
def attribute? (e : Element) (key : Text) : Option Text :=
  e.tag.attributes.get? key

/-- The child elements in document order. -/
def elements (e : Element) : List Element :=
  e.content.filterMap Node.element?

/-- The child elements with exactly this name. -/
def childrenNamed (e : Element) (name : Text) : List Element :=
  e.elements.filter fun child => child.tag.name == name

/-- The first child element with exactly this name. -/
def child? (e : Element) (name : Text) : Option Element :=
  e.elements.find? fun child => child.tag.name == name

/-- The text of the element and of all that it holds. -/
def text (e : Element) : Text :=
  textOf e.content

/-! ### Growing content -/

/-- Appends a text, as part of the text that the content ends with if it ends with one. -/
def appendText (text : Text) : List Node → List Node
  | [] => [.text text]
  | [.text last] => [.text (last ++ text)]
  | n :: ns => n :: appendText text ns

/-- Appends a text to the content of an element. -/
def pushText (e : Element) (text : Text) : Element :=
  { e with content := appendText text e.content }

/-- Appends a child element. -/
def pushChild (e child : Element) : Element :=
  { e with content := e.content ++ [child.toNode] }

/-- Sets an attribute. -/
def setAttribute (e : Element) (key value : Text) : Element :=
  { e with tag := { e.tag with attributes := e.tag.attributes.insert key value } }

theorem attribute?_setAttribute (e : Element) (key value k : Text) :
    (e.setAttribute key value).attribute? k = if k = key then some value else e.attribute? k :=
  Attributes.get?_insert e.tag.attributes key value k

end Element

end DocComment.Xml
