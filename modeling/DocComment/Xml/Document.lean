import DocComment.Xml.Tag
import DocComment.Xml.Token

/-!
From tokens to an element tree.

* **Open elements.** `Nest` is the element that content currently goes to and the elements
  around it. Opening, closing and appending are steps on it.
* **Progress.** Before the root, inside it, or after it: `step` takes one token further and says
  what is wrong with it there.
* **The first fault counts.** Tokens are judged from left to right; a fault of the cutting comes
  after all tokens before it, and the end of the text comes last.
-/

namespace DocComment.Xml

/-- The open elements: the innermost one, and those around it from the inside out. -/
structure Nest where
  top : Element
  outer : List Element := []
  deriving Repr, Inhabited

namespace Nest

/-- The number of open elements. -/
def depth (n : Nest) : Nat :=
  n.outer.length + 1

/-- Opens an element inside the innermost one. -/
def openElement (n : Nest) (e : Element) : Nest :=
  ⟨e, n.top :: n.outer⟩

/-- Closes the innermost element, which becomes the last child of the one around it. The
outermost element has none around it. -/
def close? (n : Nest) : Option Nest :=
  match n.outer with
  | [] => none
  | parent :: rest => some ⟨parent.pushChild n.top, rest⟩

/-- Appends a text to the innermost element. -/
def pushText (n : Nest) (text : Text) : Nest :=
  { n with top := n.top.pushText text }

/-- Appends a child to the innermost element. -/
def pushChild (n : Nest) (child : Element) : Nest :=
  { n with top := n.top.pushChild child }

end Nest

/-- How far a document has been read. -/
inductive Progress where
  | before
  | inside (nest : Nest)
  | after (root : Element)
  deriving Repr, Inhabited

namespace Progress

/-- A token outside the root, given the progress that stays if it does not begin a root.
`started` is the progress with a root that has this tag, or the fault of a second root. -/
def stepOutside (stay : Progress) (started : Tag → Except Error Progress) :
    Token → Except Error Progress
  | .text t => if Text.isBlank t then .ok stay else .error .textOutsideRoot
  | .cdata _ => .error .textOutsideRoot
  | .reference _ => .error .textOutsideRoot
  | .startTag source => (Tag.read false source).bind started
  | .emptyTag source => (Tag.read true source).bind started
  | .endTag name => .error (.strayEnd name)
  | .silent => .ok stay

/-- A token inside the root. -/
def stepInside (nest : Nest) : Token → Except Error Progress
  | .text t => .ok (inside (nest.pushText t))
  | .cdata t => .ok (inside (nest.pushText t))
  | .reference name => (Reference.ofContent name).map fun c => inside (nest.pushText [c])
  | .startTag source =>
    (Tag.read false source).map fun tag => inside (nest.openElement { tag := tag })
  | .emptyTag source =>
    (Tag.read true source).map fun tag => inside (nest.pushChild { tag := tag })
  | .endTag name =>
    if name = nest.top.tag.name then
      match nest.close? with
      | some rest => .ok (inside rest)
      | none => .ok (after nest.top)
    else .error (.mismatchedEnd nest.top.tag.name name)
  | .silent => .ok (inside nest)

/-- The progress with a root that has a given tag. -/
def ofRootTag (tag : Tag) : Progress :=
  if tag.selfClosing then after { tag := tag } else inside { top := { tag := tag } }

/-- Takes one token further. -/
def step : Progress → Token → Except Error Progress
  | before => stepOutside before fun tag => .ok (ofRootTag tag)
  | inside nest => stepInside nest
  | after root => stepOutside (after root) fun tag => .error (.multipleRoots tag.name)

/-- Takes tokens further, from left to right. -/
def steps : Progress → List Token → Except Error Progress
  | p, [] => .ok p
  | p, token :: rest =>
    match p.step token with
    | .ok next => steps next rest
    | .error e => .error e

/-- The root, at the end of the text. -/
def finish : Progress → Except Error Element
  | before => .error .missingRoot
  | inside nest => .error (.unclosedElement nest.top.tag.name)
  | after root => .ok root

/-- Reading on is reading in one go. -/
theorem steps_append (p : Progress) (xs ys : List Token) :
    p.steps (xs ++ ys) = (p.steps xs).bind fun q => q.steps ys := by
  induction xs generalizing p with
  | nil => rfl
  | cons x xs ih =>
    rw [List.cons_append, steps, steps]
    cases p.step x with
    | error e => rfl
    | ok next => exact ih next

end Progress

/-- The root of a document that has been cut into tokens. -/
def rootOf (s : Scan) : Except Error Element :=
  match Progress.before.steps s.tokens with
  | .error e => .error e
  | .ok p =>
    match s.fault with
    | some e => .error e
    | none => p.finish

/-- A text without the byte order mark it may begin with. -/
def dropByteOrderMark : Text → Text
  | '\uFEFF' :: t => t
  | t => t

/-- Reads a document: the one element that it consists of. -/
def readDocument (t : Text) : Except Error Element :=
  rootOf (scan (dropByteOrderMark t))

end DocComment.Xml
