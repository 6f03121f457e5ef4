import DocComment.Proofs.Body.Trace
import DocComment.Proofs.Visible

/-!
What is seen of a body when it has been written.

* **Shown characters.** `contentShows` says by recursion on the content which visible characters
  each piece gives: a text its own, a block its body, a reference the name it stands for or the
  text in it, an item its marker and its parts, with a dash between two. Spacing plays no part in
  it.
* **Writing shows just these.** Whatever the spacing, the page before and the references on it,
  writing a content adds its shown characters in their order and, besides, white space only
  (`visible_writeContent`, `visible_render`).
-/

namespace DocComment

open Xml Text

/-! ### Shown characters -/

namespace ItemParts

/-- The line of a marked item, as it is seen, from what is seen of its parts and of its own
text. -/
def markedShows (p : ItemParts) (own : Text) : Text :=
  if p.termText.isEmpty && p.descriptionText.isEmpty then own
  else if p.termText.isEmpty then p.descriptionText
  else p.termText ++ '-' :: p.descriptionText

/-- The line of a definition, as it is seen, from what is seen of its parts. -/
def definitionShows (p : ItemParts) : Text :=
  if p.termText.isEmpty then p.descriptionText
  else if p.descriptionText.isEmpty then p.termText
  else p.termText ++ '—' :: p.descriptionText

end ItemParts

namespace Body

mutual

/-- The visible characters that a piece of content gives. The names of the tags with each role are
those in `Role.tagNames`. -/
def nodeShows : Node → Text
  | .text t => visible t
  | .element tag content =>
    match Role.ofName tag.localName with
    | .block => contentShows content
    | .list => itemsShow (ListKind.ofTag tag) (firstNumber tag) content
    | .code => visible (textOf content)
    | .parameter => visible (nameIn tag "name")
    | .see => visible (if content.isEmpty then nameIn tag "cref" else textOf content)
    | .seeAlso =>
      if (contentShows content).isEmpty then visible (nameIn tag "cref") else contentShows content
    | .plain => visible (textOf content)

/-- The visible characters that a content gives. -/
def contentShows : List Node → Text
  | [] => []
  | n :: ns => nodeShows n ++ contentShows ns

/-- The visible characters that the items of a list give; `number` is the number of the next
item. -/
def itemsShow (kind : ListKind) (number : Int) : List Node → Text
  | [] => []
  | .text _ :: ns => itemsShow kind number ns
  | .element tag content :: ns =>
    if tag.name = "item".toList then
      let parts : ItemParts := ⟨partShows "term" content, partShows "description" content⟩
      let line :=
        match kind with
        | .bullet => '*' :: parts.markedShows (visible (textOf content))
        | .numbered =>
          signedDecimal number ++ '.' :: parts.markedShows (visible (textOf content))
        | .definition => if parts.isAbsent then contentShows content else parts.definitionShows
      line ++ itemsShow kind (number + 1) ns
    else itemsShow kind number ns

/-- The visible characters of the first element with a given name, if there is one. -/
def partShows (name : String) : List Node → Option Text
  | [] => none
  | .text _ :: ns => partShows name ns
  | .element tag content :: ns =>
    if tag.name = name.toList then some (contentShows content) else partShows name ns

end

/-- The visible characters that an item gives. -/
def itemShows (kind : ListKind) (number : Int) (content : List Node) : Text :=
  let parts : ItemParts := ⟨partShows "term" content, partShows "description" content⟩
  match kind with
  | .bullet => '*' :: parts.markedShows (visible (textOf content))
  | .numbered => signedDecimal number ++ '.' :: parts.markedShows (visible (textOf content))
  | .definition => if parts.isAbsent then contentShows content else parts.definitionShows

lemma itemsShow_item {tag : Tag} (h : tag.name = "item".toList) (kind : ListKind) (number : Int)
    (content ns : List Node) :
    itemsShow kind number (.element tag content :: ns) =
      itemShows kind number content ++ itemsShow kind (number + 1) ns := by
  rw [itemsShow, if_pos h]
  rfl

/-! ### Pages -/

lemma visible_endLine (t : Text) : visible (Page.endLine t) = visible t := by
  rw [Page.endLine]
  split
  · simp
  · rfl

lemma visible_withLineFeed (t : Text) : visible (Page.withLineFeed t) = visible t := by
  rw [Page.withLineFeed]
  split
  · rfl
  · simp

lemma visible_block (p body : Page) :
    visible (p.block body).text = visible p.text ++ visible body.text := by
  rw [Page.block, visible_withLineFeed, visible_append, visible_endLine, visible_trim]

lemma visible_line (p : Page) (t : Text) (m : SeeAlsos) :
    visible (p.line t m).text = visible p.text ++ visible t := by
  simp [Page.line]

/-- A see-also shows its key if nothing is seen of its body. -/
lemma visible_seeAlsoDisplay (s : Spacing) (tag : Tag) (body : Text) :
    visible (seeAlsoDisplay s tag body) =
      if (visible body).isEmpty then visible (nameIn tag "cref") else visible body := by
  simp only [seeAlsoDisplay, Spacing.isEmpty_normalize, visible_trim]
  split
  · rfl
  · rw [Spacing.visible_normalize, visible_trim]

/-! ### Items -/

/-- Whether a part of an item shows given characters, and is empty only if it shows none. -/
structure ShowsPart (part shown : Option Text) : Prop where
  isNone : part.isNone = shown.isNone
  isEmpty : (part.getD []).isEmpty = (shown.getD []).isEmpty
  visible : visible (part.getD []) = shown.getD []

lemma ShowsPart.none : ShowsPart none none :=
  ⟨rfl, rfl, rfl⟩

lemma ShowsPart.some (t : Text) : ShowsPart (some (trim t)) (some (Text.visible t)) := by
  refine ⟨rfl, ?_, visible_trim t⟩
  rw [Option.getD_some, Option.getD_some, ← isEmpty_visible_trim, visible_trim]

/-- Whether the parts of an item show the characters in given parts. -/
structure ShowsParts (p shown : ItemParts) : Prop where
  term : ShowsPart p.term shown.term
  description : ShowsPart p.description shown.description

namespace ShowsParts

variable {p shown : ItemParts} (h : ShowsParts p shown)

include h

lemma isAbsent_eq : p.isAbsent = shown.isAbsent := by
  rw [ItemParts.isAbsent, ItemParts.isAbsent, h.term.isNone, h.description.isNone]

lemma isEmpty_termText : p.termText.isEmpty = shown.termText.isEmpty :=
  h.term.isEmpty

lemma isEmpty_descriptionText : p.descriptionText.isEmpty = shown.descriptionText.isEmpty :=
  h.description.isEmpty

lemma visible_termText : visible p.termText = shown.termText :=
  h.term.visible

lemma visible_descriptionText : visible p.descriptionText = shown.descriptionText :=
  h.description.visible

/-- Of two parts in one line both are seen, and the dash between them. -/
lemma visible_termText_append {separator : Text} {dash : Char}
    (hdash : visible separator = [dash]) :
    visible (p.termText ++ separator ++ p.descriptionText) =
      shown.termText ++ dash :: shown.descriptionText := by
  rw [visible_append, visible_append, h.visible_termText, hdash, h.visible_descriptionText,
    List.append_assoc, List.singleton_append]

lemma visible_markedLine (own : Text) :
    visible (p.markedLine own) = shown.markedShows (visible own) := by
  rw [ItemParts.markedLine, ItemParts.markedShows, h.isEmpty_termText, h.isEmpty_descriptionText]
  split
  · exact visible_trim own
  · split
    · exact h.visible_descriptionText
    · exact h.visible_termText_append (by decide)

lemma visible_definitionLine : visible p.definitionLine = shown.definitionShows := by
  rw [ItemParts.definitionLine, ItemParts.definitionShows, h.isEmpty_termText,
    h.isEmpty_descriptionText]
  split
  · exact h.visible_descriptionText
  · split
    · exact h.visible_termText
    · exact h.visible_termText_append (by decide)

end ShowsParts

/-! ### Writing shows what a content gives -/

section Element

variable {content : List Node}
  (body : ∀ (s : Spacing) (p : Page),
    visible (writeContent s p content).text = visible p.text ++ contentShows content)

include body

/-- An element shows what its body gives, or the text that stands for it. -/
lemma visible_writeNode_element
    (items : ∀ (kind : ListKind) (number : Int) (p : Page),
      visible (writeItems kind number p content).text =
        visible p.text ++ itemsShow kind number content)
    (s : Spacing) (tag : Tag) (p : Page) :
    visible (writeNode s p (.element tag content)).text =
      visible p.text ++ nodeShows (.element tag content) := by
  have hinline : ∀ (s : Spacing) (p : Page) (fragment : Text),
      visible (p.inline s fragment).text = visible p.text ++ visible fragment :=
    fun s p fragment => Spacing.visible_append s p.text fragment
  simp only [writeNode, nodeShows]
  cases Role.ofName tag.localName with
  | block => rw [visible_block, body, visible_nil, List.nil_append]
  | list => rw [items, visible_append, visible_lineFeed, visible_nil, List.append_nil]
  | seeAlso => rw [hinline, visible_seeAlsoDisplay, body, visible_nil, List.nil_append]
  | code => exact hinline _ _ _
  | parameter => exact hinline _ _ _
  | see => exact hinline _ _ _
  | plain => exact hinline _ _ _

/-- An item shows its marker and what its parts give. -/
lemma visible_writeItem
    (part : ∀ (name : String) (m : SeeAlsos),
      ShowsPart (writePart name m content).1 (partShows name content))
    (kind : ListKind) (number : Int) (p : Page) :
    visible (writeItem kind number p content).text =
      visible p.text ++ itemShows kind number content := by
  have hparts : ShowsParts
      ⟨(writePart "term" p.seeAlsos content).1,
        (writePart "description" (writePart "term" p.seeAlsos content).2 content).1⟩
      ⟨partShows "term" content, partShows "description" content⟩ :=
    ⟨part "term" _, part "description" _⟩
  simp only [writeItem, itemShows]
  cases kind with
  | bullet =>
      have hmarker : visible (ListKind.bullet.marker number) = ['*'] := rfl
      rw [visible_line, visible_append, hmarker, hparts.visible_markedLine]
      rfl
  | numbered =>
      have hdot : visible ". ".toList = ['.'] := rfl
      rw [visible_line, visible_append, ListKind.marker, visible_append, visible_signedDecimal,
        hdot, hparts.visible_markedLine, List.append_assoc]
      rfl
  | definition =>
      simp only [hparts.isAbsent_eq]
      split
      · rw [visible_line, visible_trim, body, visible_nil, List.nil_append]
      · rw [visible_line, hparts.visible_definitionLine]

end Element

mutual

theorem visible_writeNode (s : Spacing) (p : Page) : ∀ n : Node,
    visible (writeNode s p n).text = visible p.text ++ nodeShows n
  | .text t => by
      rw [writeNode, nodeShows]
      split
      · rename_i h
        rw [visible_eq_nil_iff.mpr h, List.append_nil]
      · exact Spacing.visible_append s p.text t
  | .element tag content =>
      visible_writeNode_element (fun s p => visible_writeContent s p content)
        (fun kind number p => visible_writeItems kind number p content) s tag p

/-- **Writing a content** adds its shown characters to those of the page. -/
theorem visible_writeContent (s : Spacing) (p : Page) : ∀ ns : List Node,
    visible (writeContent s p ns).text = visible p.text ++ contentShows ns
  | [] => by rw [writeContent, contentShows, List.append_nil]
  | n :: ns => by
      rw [writeContent, visible_writeContent s (writeNode s p n) ns, visible_writeNode s p n,
        contentShows, List.append_assoc]

theorem visible_writeItems (kind : ListKind) (number : Int) (p : Page) : ∀ ns : List Node,
    visible (writeItems kind number p ns).text = visible p.text ++ itemsShow kind number ns
  | [] => by rw [writeItems, itemsShow, List.append_nil]
  | .text t :: ns => by
      rw [writeItems, itemsShow]
      exact visible_writeItems kind number p ns
  | .element tag content :: ns => by
      by_cases h : tag.name = "item".toList
      · have hitem := visible_writeItem (fun s p => visible_writeContent s p content)
          (fun name m => showsPart_writePart name m content) kind number p
        rw [writeItems_item h, itemsShow_item h, visible_writeItems kind (number + 1) _ ns, hitem,
          List.append_assoc]
      · rw [writeItems, itemsShow, if_neg h, if_neg h]
        exact visible_writeItems kind number p ns

theorem showsPart_writePart (name : String) (m : SeeAlsos) : ∀ ns : List Node,
    ShowsPart (writePart name m ns).1 (partShows name ns)
  | [] => .none
  | .text t :: ns => by
      rw [writePart, partShows]
      exact showsPart_writePart name m ns
  | .element tag content :: ns => by
      rw [writePart, partShows]
      split
      · have hbody := visible_writeContent .preserve { seeAlsos := m } content
        rw [visible_nil, List.nil_append] at hbody
        rw [← hbody]
        exact .some _
      · exact showsPart_writePart name m ns

end

/-- **Rendering shows every visible character once and in order.** Without its white space, the
text of the body of an element is what its content gives, whatever the spacing and whatever has
been listed before. -/
theorem visible_render (s : Spacing) (m : SeeAlsos) (e : Element) :
    visible (render s m e).1 = contentShows e.content := by
  rw [render, visible_trim, visible_writeContent, visible_nil, List.nil_append]

end Body

end DocComment
