import DocComment.Proofs.Body.Reach
import DocComment.Proofs.Visible

/-!
The lines of a list.

* **One line for each item.** What an item gives depends on the item, the kind of its list and its
  number alone: `itemLine` says it by its term and description, each rendered by itself, its body or
  its own text.
* **Writing a list** appends these lines, in the order of the items, each with a line feed at its
  end, whatever is on the page (`text_writeItems`).
* **Line breaks within items stay.** So a list has a line feed for each item and, besides, those in
  the texts that its lines are made of (`count_lineFeed_writeItems`), which need not be free of them
  (`not_forall_count_lineFeed`).
-/

namespace DocComment

open Xml Text

namespace Body

/-! ### Lines of items -/

/-- The parts of an item, each rendered by itself. -/
def itemParts (item : Element) : ItemParts where
  term := (item.child? "term".toList).map fun part => (render .preserve .empty part).1
  description := (item.child? "description".toList).map fun part => (render .preserve .empty part).1

/-- The line of an item, without the line feed at its end. -/
def itemLine (kind : ListKind) (number : Int) (item : Element) : Text :=
  match kind with
  | .definition =>
    if (itemParts item).isAbsent then (render .preserve .empty item).1
    else (itemParts item).definitionLine
  | marked => marked.marker number ++ (itemParts item).markedLine item.text

/-- The lines of the items of a list, of which the first has the given number. -/
def itemLines (kind : ListKind) (number : Int) (items : List Element) : List Text :=
  items.mapIdx fun i item => itemLine kind (number + i) item

lemma itemLines_cons (kind : ListKind) (number : Int) (item : Element) (items : List Element) :
    itemLines kind number (item :: items) =
      itemLine kind number item :: itemLines kind (number + 1) items := by
  have hnumber : ∀ i : Nat, number + ((i + 1 : Nat) : Int) = number + 1 + i := fun i => by omega
  simp only [itemLines, List.mapIdx_cons, hnumber, Int.natCast_zero, Int.add_zero]

/-- A part is the first element of its name, rendered by itself. -/
lemma fst_writePart (name : String) (m : SeeAlsos) (item : Element) :
    (writePart name m item.content).1 =
      (item.child? name.toList).map fun part => (render .preserve .empty part).1 := by
  obtain ⟨tag, content⟩ := item
  induction content with
  | nil => rfl
  | cons n ns ih =>
      cases n with
      | text t => exact ih
      | element t content =>
          rw [child?_element_cons, writePart]
          split
          · simp only [text_writeContent, Option.map_some, text_render]
          · exact ih

/-- **An item** adds its line, whatever is on the page. -/
lemma text_writeItem (kind : ListKind) (number : Int) (p : Page) (item : Element) :
    (writeItem kind number p item.content).text =
      p.text ++ itemLine kind number item ++ ['\n'] := by
  have hparts : ∀ m m', (⟨(writePart "term" m item.content).1,
      (writePart "description" m' item.content).1⟩ : ItemParts) = itemParts item := fun m m' => by
    rw [fst_writePart, fst_writePart, itemParts]
  simp only [writeItem, hparts, itemLine]
  cases kind with
  | bullet => rfl
  | numbered => rfl
  | definition =>
      dsimp only
      split
      · rw [text_render, Page.line, text_writeContent]
      · rfl

lemma childrenNamed_element_cons (name : Text) (tag t : Tag) (content ns : List Node) :
    (⟨tag, .element t content :: ns⟩ : Element).childrenNamed name =
      if t.name = name then ⟨t, content⟩ :: (⟨tag, ns⟩ : Element).childrenNamed name
      else (⟨tag, ns⟩ : Element).childrenNamed name := by
  simp [Element.childrenNamed, Element.elements, Node.element?, List.filter_cons]

/-- **Writing a list** adds the lines of its items, each with a line feed at its end. -/
theorem text_writeItems (kind : ListKind) (number : Int) (p : Page) (list : Element) :
    (writeItems kind number p list.content).text =
      p.text ++ (itemLines kind number (list.childrenNamed "item".toList)).flatMap
        fun line => line ++ ['\n'] := by
  obtain ⟨tag, content⟩ := list
  induction content generalizing number p with
  | nil => exact (List.append_nil p.text).symm
  | cons n ns ih =>
      cases n with
      | text t =>
          rw [writeItems]
          exact ih number p
      | element t content =>
          rw [childrenNamed_element_cons]
          by_cases hname : t.name = "item".toList
          · have hitem := text_writeItem kind number p ⟨t, content⟩
            rw [writeItems_item hname, ih, hitem, if_pos hname, itemLines_cons, List.flatMap_cons]
            simp only [List.append_assoc]
          · rw [writeItems, if_neg hname, if_neg hname]
            exact ih number p

/-! ### Line feeds -/

/-- The texts that the line of a marked item shows. -/
def markedTexts (p : ItemParts) (own : Text) : List Text :=
  if p.termText.isEmpty && p.descriptionText.isEmpty then [trim own]
  else [p.termText, p.descriptionText]

/-- The texts that the line of an item shows. -/
def itemTexts (kind : ListKind) (item : Element) : List Text :=
  match kind with
  | .bullet => markedTexts (itemParts item) item.text
  | .numbered => markedTexts (itemParts item) item.text
  | .definition =>
    if (itemParts item).isAbsent then [(render .preserve .empty item).1]
    else [(itemParts item).termText, (itemParts item).descriptionText]

lemma lineFeed_not_mem_marker (kind : ListKind) (number : Int) : '\n' ∉ kind.marker number := by
  cases kind with
  | bullet => simp [ListKind.marker]
  | numbered =>
      have hnumber : '\n' ∉ signedDecimal number := by
        rw [← visible_signedDecimal]
        intro hmem
        exact absurd (List.mem_filter.mp hmem).2 (by decide)
      simp [ListKind.marker, hnumber]
  | definition => simp [ListKind.marker]

/-- The dash between two parts brings no line feed. -/
lemma count_markedLine (p : ItemParts) (own : Text) :
    (p.markedLine own).count '\n' = (markedTexts p own).flatten.count '\n' := by
  rw [ItemParts.markedLine, markedTexts]
  split
  · simp
  · split
    · rename_i hterm
      simp [List.isEmpty_iff.mp hterm]
    · simp

lemma count_definitionLine (p : ItemParts) :
    p.definitionLine.count '\n' = [p.termText, p.descriptionText].flatten.count '\n' := by
  rw [ItemParts.definitionLine]
  split
  · rename_i hterm
    simp [List.isEmpty_iff.mp hterm]
  · split
    · rename_i hdescription
      simp [List.isEmpty_iff.mp hdescription]
    · simp

/-- The line feeds in the line of an item are those in the texts that it shows. -/
lemma count_itemLine (kind : ListKind) (number : Int) (item : Element) :
    (itemLine kind number item).count '\n' = (itemTexts kind item).flatten.count '\n' := by
  have hmarker := List.count_eq_zero.mpr (lineFeed_not_mem_marker kind number)
  have hmarked := count_markedLine (itemParts item) item.text
  cases kind with
  | bullet =>
      simp only [itemLine, itemTexts, List.count_append, hmarker, hmarked, Nat.zero_add]
  | numbered =>
      simp only [itemLine, itemTexts, List.count_append, hmarker, hmarked, Nat.zero_add]
  | definition =>
      simp only [itemLine, itemTexts]
      split
      · simp
      · exact count_definitionLine (itemParts item)

lemma count_itemLines (kind : ListKind) (number : Int) (items : List Element) :
    ((itemLines kind number items).flatMap fun line => line ++ ['\n']).count '\n' =
      items.length + (items.flatMap (itemTexts kind)).flatten.count '\n' := by
  induction items generalizing number with
  | nil => rfl
  | cons item items ih =>
      have hline := count_itemLine kind number item
      have hrest := ih (number + 1)
      simp only [itemLines_cons, List.flatMap_cons, List.flatten_append, List.count_append,
        List.count_singleton_self, List.length_cons, hline, hrest]
      omega

/-- **One line feed for each item**, at the end of its line, and besides those that stand in the
texts of the lines. So there is just one for each item if and only if none of these texts has a line
feed. -/
theorem count_lineFeed_writeItems (list : Element) (p : Page) :
    ∃ written,
      (writeItems (ListKind.ofTag list.tag) (firstNumber list.tag) p list.content).text =
        p.text ++ written ∧
      written = (itemLines (ListKind.ofTag list.tag) (firstNumber list.tag)
        (list.childrenNamed "item".toList)).flatMap (fun line => line ++ ['\n']) ∧
      written.count '\n' = (list.childrenNamed "item".toList).length +
        ((list.childrenNamed "item".toList).flatMap
          (itemTexts (ListKind.ofTag list.tag))).flatten.count '\n' ∧
      (written.count '\n' = (list.childrenNamed "item".toList).length ↔
        ∀ item ∈ list.childrenNamed "item".toList,
          ∀ t ∈ itemTexts (ListKind.ofTag list.tag) item, '\n' ∉ t) := by
  have hcount := count_itemLines (ListKind.ofTag list.tag) (firstNumber list.tag)
    (list.childrenNamed "item".toList)
  refine ⟨_, text_writeItems _ _ p list, rfl, hcount, ?_⟩
  rw [hcount, Nat.add_eq_left, List.count_eq_zero]
  simp only [List.mem_flatten, List.mem_flatMap]
  constructor
  · intro hnone item hitem t ht hfeed
    exact hnone ⟨t, ⟨item, hitem, ht⟩, hfeed⟩
  · rintro hnone ⟨t, ⟨item, hitem, ht⟩, hfeed⟩
    exact hnone item hitem t ht hfeed

/-- A list whose only item has a description in two lines. -/
def brokenList : Element where
  tag := { name := "list".toList, attributes := .ofList [("type".toList, "bullet".toList)] }
  content :=
    [.element { name := "item".toList }
      [.element { name := "description".toList } [.text "a\nb".toList]]]

/-- So it is not the case that every list has just one line for each item. -/
theorem not_forall_count_lineFeed :
    ¬ ∀ (list : Element) (p : Page), list.role = .list → ∃ written,
      (writeItems (ListKind.ofTag list.tag) (firstNumber list.tag) p list.content).text =
        p.text ++ written ∧
      written.count '\n' = (list.childrenNamed "item".toList).length := by
  intro hall
  obtain ⟨written, htext, hcount⟩ := hall brokenList {} rfl
  have hlines : (writeItems (ListKind.ofTag brokenList.tag) (firstNumber brokenList.tag) {}
      brokenList.content).text = "* a\nb\n".toList := by decide +kernel
  obtain rfl : "* a\nb\n".toList = written := hlines.symm.trans htext
  exact absurd hcount (by decide)

end Body

end DocComment
