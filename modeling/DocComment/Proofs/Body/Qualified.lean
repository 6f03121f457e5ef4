import DocComment.Proofs.Body.Trace
import Mathlib.Data.List.TakeWhile

/-!
What a namespace mark in front of names changes in a body.

* **Marks.** `Element.qualified` puts a mark in front of the name of every element in the content
  of an element, at any depth, unless the name has a mark already.
* **Roles stay, items go.** The role of a tag goes by its local name, which a mark does not change
  (`Tag.localName_qualified`). The items of a list and their parts go by their exact names, so no
  element with a mark is one of them (`lacks_qualifiedContent`).
* **What is left.** With marks a body is written like the same body without the items of its lists
  (`render_qualified`). Nothing is lost where writing meets no item.
-/

namespace DocComment

namespace Xml

/-! ### Marks -/

/-- A name with a mark in front of it, if it has none. -/
def qualifiedName (mark name : Text) : Text :=
  if ':' ∈ name then name else mark ++ ':' :: name

/-- A tag whose name has a mark. -/
def Tag.qualified (mark : Text) (tag : Tag) : Tag :=
  { tag with name := qualifiedName mark tag.name }

mutual

/-- A piece of content with marks in all its names. -/
def Node.qualified (mark : Text) : Node → Node
  | .text t => .text t
  | .element tag content => .element (tag.qualified mark) (qualifiedContent mark content)

/-- A content with marks in all its names. -/
def qualifiedContent (mark : Text) : List Node → List Node
  | [] => []
  | n :: ns => n.qualified mark :: qualifiedContent mark ns

end

/-- **An element with marks in its content.** Its own name stays. -/
def Element.qualified (mark : Text) (e : Element) : Element :=
  { e with content := qualifiedContent mark e.content }

/-- A mark does not change the local name. -/
lemma Tag.localName_qualified (mark : Text) (tag : Tag) :
    (tag.qualified mark).localName = tag.localName := by
  rw [localName, localName, qualified, qualifiedName]
  split
  · rfl
  · rename_i hmark
    have hname : ∀ c ∈ tag.name.reverse, (c != ':') = true := fun c hc =>
      bne_iff_ne.mpr fun h => hmark (h ▸ List.mem_reverse.mp hc)
    have hall : tag.name.reverse.takeWhile (· != ':') = tag.name.reverse :=
      List.takeWhile_eq_self_iff.mpr hname
    rw [List.reverse_append, List.reverse_cons, List.append_assoc,
      List.takeWhile_append_of_pos hname, List.singleton_append,
      List.takeWhile_cons_of_neg (by decide), List.append_nil, hall]

/-- A name with a mark is not one without. -/
lemma qualifiedName_ne {name : Text} (h : ':' ∉ name) (mark other : Text) :
    qualifiedName mark other ≠ name := by
  rintro rfl
  rw [qualifiedName] at h
  split at h
  · rename_i hmark
    exact h hmark
  · exact h (List.mem_append_right _ List.mem_cons_self)

mutual

lemma Node.textOf_qualified (mark : Text) (n : Node) : (n.qualified mark).textOf = n.textOf := by
  match n with
  | .text t => rfl
  | .element tag content => exact textOf_qualifiedContent mark content

/-- Marks do not change the text without its markup. -/
lemma textOf_qualifiedContent (mark : Text) (ns : List Node) :
    textOf (qualifiedContent mark ns) = textOf ns := by
  match ns with
  | [] => rfl
  | n :: ns =>
      rw [qualifiedContent, textOf, textOf, n.textOf_qualified mark,
        textOf_qualifiedContent mark ns]

end

lemma isEmpty_qualifiedContent (mark : Text) (ns : List Node) :
    (qualifiedContent mark ns).isEmpty = ns.isEmpty := by
  cases ns <;> rfl

end Xml

namespace Body

open Xml

/-! ### Items -/

/-- Whether a piece of content has the name of an item. -/
def isItem : Node → Bool
  | .text _ => false
  | .element tag _ => tag.name = "item".toList

mutual

/-- A piece of content without the items of the lists that writing comes to. -/
def nodeWithoutItems : Node → Node
  | .text t => .text t
  | .element tag content =>
    match Role.ofName tag.localName with
    | .block => .element tag (contentWithoutItems content)
    | .seeAlso => .element tag (contentWithoutItems content)
    | .list => .element tag (content.filter (!isItem ·))
    | _ => .element tag content

/-- A content without the items of the lists that writing comes to. -/
def contentWithoutItems : List Node → List Node
  | [] => []
  | n :: ns => nodeWithoutItems n :: contentWithoutItems ns

end

/-- **An element without the items of the lists in its body**: of those in it, in its blocks and
in its see-alsos. The lists themselves stay. -/
def withoutItems (e : Element) : Element :=
  { e with content := contentWithoutItems e.content }

/-- A list without items is written as nothing. -/
lemma writeItems_of_lacks {content : List Node} (h : lacks "item".toList content = true)
    (kind : ListKind) (number : Int) (p : Page) : writeItems kind number p content = p := by
  induction content with
  | nil => rfl
  | cons n ns ih =>
      obtain ⟨hn, hns⟩ := Bool.and_eq_true_iff.mp h
      cases n with
      | text t => exact ih hns
      | element tag content =>
          rw [writeItems, if_neg (by simpa using hn)]
          exact ih hns

lemma lacks_qualifiedContent {name : Text} (h : ':' ∉ name) (mark : Text) (content : List Node) :
    lacks name (qualifiedContent mark content) = true := by
  induction content with
  | nil => rfl
  | cons n ns ih =>
      refine Bool.and_eq_true_iff.mpr ⟨?_, ih⟩
      cases n with
      | text t => rfl
      | element tag content =>
          exact decide_eq_true (qualifiedName_ne h mark tag.name)

lemma lacks_filter_isItem (content : List Node) :
    lacks "item".toList (content.filter (!isItem ·)) = true := by
  refine List.all_eq_true.mpr fun n hn => ?_
  have hitem := (List.mem_filter.mp hn).2
  cases n with
  | text t => rfl
  | element tag content => simpa [isItem] using hitem

/-! ### Writing with marks -/

mutual

lemma writeNode_qualified (mark : Text) (s : Spacing) (p : Page) (n : Node) :
    writeNode s p (n.qualified mark) = writeNode s p (nodeWithoutItems n) := by
  match n with
  | .text t => rfl
  | .element tag content =>
      rw [Node.qualified, writeNode, Tag.localName_qualified, nodeWithoutItems]
      cases hrole : Role.ofName tag.localName with
      | block =>
          simp only [writeNode, hrole]
          rw [writeContent_qualified mark]
      | seeAlso =>
          simp only [writeNode, hrole]
          rw [writeContent_qualified mark]
          rfl
      | list =>
          -- there is no item on either side, so that only the line before the list is ended
          simp only [writeNode, hrole]
          rw [writeItems_of_lacks (lacks_qualifiedContent (by decide) mark content),
            writeItems_of_lacks (lacks_filter_isItem content)]
      | see =>
          simp only [writeNode, hrole, isEmpty_qualifiedContent, textOf_qualifiedContent]
          rfl
      | code | plain => simp only [writeNode, hrole, textOf_qualifiedContent]
      | parameter =>
          simp only [writeNode, hrole]
          rfl

/-- With marks a content is written like the content without items. -/
lemma writeContent_qualified (mark : Text) (s : Spacing) (p : Page) (ns : List Node) :
    writeContent s p (qualifiedContent mark ns) = writeContent s p (contentWithoutItems ns) := by
  match ns with
  | [] => rfl
  | n :: ns =>
      rw [qualifiedContent, contentWithoutItems, writeContent, writeContent,
        writeNode_qualified mark s p n, writeContent_qualified mark s _ ns]

end

/-! ### Bodies without items -/

lemma filter_isItem_of_itemsTrace {o : PartOrder} {kind : ListKind} {content : List Node}
    (h : ∀ c, Event.item c ∉ itemsTrace o kind content) :
    content.filter (!isItem ·) = content := by
  induction content with
  | nil => rfl
  | cons n ns ih =>
      cases n with
      | text t => rw [List.filter_cons_of_pos rfl, ih h]
      | element tag content =>
          by_cases hname : tag.name = "item".toList
          · refine absurd ?_ (h content)
            rw [itemsTrace_item hname]
            exact List.mem_append_left _ List.mem_cons_self
          · rw [itemsTrace, if_neg hname] at h
            rw [List.filter_cons_of_pos (by simpa [isItem] using hname), ih h]

mutual

lemma nodeWithoutItems_of_nodeTrace {o : PartOrder} {s : Spacing} (n : Node)
    (h : ∀ c, Event.item c ∉ nodeTrace o s n) : nodeWithoutItems n = n := by
  match n with
  | .text t => rfl
  | .element tag content =>
      rw [nodeTrace] at h
      rw [nodeWithoutItems]
      cases hrole : Role.ofName tag.localName with
      | block =>
          simp only [hrole] at h
          simp only [contentWithoutItems_of_contentTrace content h]
      | seeAlso =>
          simp only [hrole, List.mem_append, not_or] at h
          simp only [contentWithoutItems_of_contentTrace content fun c => (h c).1]
      | list =>
          simp only [hrole] at h
          simp only [filter_isItem_of_itemsTrace h]
      | code | parameter | see | plain => rfl

/-- Where no item is met, there is none to be taken out. -/
lemma contentWithoutItems_of_contentTrace {o : PartOrder} {s : Spacing} (ns : List Node)
    (h : ∀ c, Event.item c ∉ contentTrace o s ns) : contentWithoutItems ns = ns := by
  match ns with
  | [] => rfl
  | n :: ns =>
      simp only [contentTrace, List.mem_append, not_or] at h
      rw [contentWithoutItems, nodeWithoutItems_of_nodeTrace n fun c => (h c).1,
        contentWithoutItems_of_contentTrace ns fun c => (h c).2]

end

/-- **Marks take the items away and nothing else.** With a mark in front of the names in its
content, an element is rendered like the element without the items of the lists that rendering
comes to, with the same see-alsos. So it is rendered as before if no item is met. -/
theorem render_qualified (s : Spacing) (m : SeeAlsos) (mark : Text) (e : Element) :
    render s m (e.qualified mark) = render s m (withoutItems e) ∧
      ((∀ content, Event.item content ∉ contentTrace .termFirst s e.content) →
        render s m (e.qualified mark) = render s m e) := by
  have hbare : render s m (e.qualified mark) = render s m (withoutItems e) := by
    simp only [render, Element.qualified, withoutItems, writeContent_qualified]
  refine ⟨hbare, fun h => ?_⟩
  rw [hbare, withoutItems, contentWithoutItems_of_contentTrace e.content h]

/-- A paragraph with a see-also, and a list without items. -/
def itemlessRemarks : Element where
  tag := { name := "remarks".toList }
  content :=
    [.element { name := "para".toList }
        [.text ['a'], .element { name := "seealso".toList } [.text ['b']]],
      .element { name := "list".toList } [.element { name := "c".toList } [.text ['d']]]]

theorem render_qualified_itemlessRemarks :
    (∀ content, Event.item content ∉ contentTrace .termFirst .preserve itemlessRemarks.content) ∧
      render .preserve .empty (itemlessRemarks.qualified ['x']) =
        render .preserve .empty itemlessRemarks := by
  have hmet : ∀ content,
      Event.item content ∉ contentTrace .termFirst .preserve itemlessRemarks.content := by
    intro content h
    have htrace : contentTrace .termFirst .preserve itemlessRemarks.content =
        [.seeAlso .preserve ⟨{ name := "seealso".toList }, [.text ['b']]⟩] := rfl
    rw [htrace, List.mem_singleton] at h
    cases h
  exact ⟨hmet, (render_qualified _ _ _ _).2 hmet⟩

/-- A list with an item. -/
def listRemarks : Element where
  tag := { name := "remarks".toList }
  content :=
    [.element { name := "list".toList } [.element { name := "item".toList } [.text ['a']]]]

/-- Marks made of letters do change what is rendered. -/
theorem not_forall_render_qualified :
    ¬ ∀ (s : Spacing) (m : SeeAlsos) (mark : Text) (e : Element), mark ≠ [] →
        (∀ c ∈ mark, c.isAlpha = true) → render s m (e.qualified mark) = render s m e := by
  intro h
  have hsame := h .preserve .empty ['x'] listRemarks (by decide)
    (List.forall_mem_singleton.mpr rfl)
  have hmarked : (render .preserve .empty (listRemarks.qualified ['x'])).1 = [] := by
    decide +kernel
  have hplain : (render .preserve .empty listRemarks).1 = ['a'] := by
    decide +kernel
  rw [hsame, hplain] at hmarked
  cases hmarked

end Body

end DocComment
