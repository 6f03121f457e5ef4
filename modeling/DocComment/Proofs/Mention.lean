import DocComment.Proofs.Body.Shown
import DocComment.Proofs.SectionByTag
import DocComment.Proofs.SeeAlsoReach

/-!
The declarations and parameters that a body mentions by name.

* **Mentions.** A parameter, and a reference without content, stand for a name
  (`Element.mention?`).
* **What is reached is shown.** The name of a mention that writing comes to is seen in one piece
  in what the body shows (`Reaches.isInfix_contentShows`), and so in the text of the section
  (`Comment.mention_isInfix`).
* **What is not reached.** A mention within text that is taken as it is, such as inline code, is
  not shown (`Comment.not_forall_mention_isInfix`).
-/

namespace DocComment

open Xml Body Text

/-- The name that an element stands for. -/
def Xml.Element.mention? (e : Element) : Option Text :=
  match e.role with
  | .parameter => some (nameIn e.tag "name")
  | .see => if e.content.isEmpty then some (nameIn e.tag "cref") else none
  | _ => none

/-! ### Lines of items -/

namespace ItemParts

/-- Both parts are seen in the line of a marked item. -/
lemma isInfix_markedShows (p : ItemParts) (own : Text) :
    p.termText <:+: p.markedShows own ∧ p.descriptionText <:+: p.markedShows own := by
  rw [markedShows]
  split
  · rename_i hempty
    obtain ⟨hterm, hdescription⟩ := Bool.and_eq_true_iff.mp hempty
    rw [List.isEmpty_iff.mp hterm, List.isEmpty_iff.mp hdescription]
    exact ⟨List.nil_infix, List.nil_infix⟩
  · split
    · rename_i hterm
      rw [List.isEmpty_iff.mp hterm]
      exact ⟨List.nil_infix, List.infix_rfl⟩
    · exact ⟨(List.prefix_append _ _).isInfix,
        List.infix_append_of_infix_right (List.infix_cons List.infix_rfl)⟩

/-- Both parts are seen in the line of a definition. -/
lemma isInfix_definitionShows (p : ItemParts) :
    p.termText <:+: p.definitionShows ∧ p.descriptionText <:+: p.definitionShows := by
  rw [definitionShows]
  split
  · rename_i hterm
    rw [List.isEmpty_iff.mp hterm]
    exact ⟨List.nil_infix, List.infix_rfl⟩
  · split
    · rename_i hdescription
      rw [List.isEmpty_iff.mp hdescription]
      exact ⟨List.infix_rfl, List.nil_infix⟩
    · exact ⟨(List.prefix_append _ _).isInfix,
        List.infix_append_of_infix_right (List.infix_cons List.infix_rfl)⟩

end ItemParts

namespace Body

/-! ### What is shown of the parts of a body -/

/-- What a piece of content shows is seen in one piece. -/
lemma nodeShows_isInfix_of_mem {n : Node} {content : List Node} (h : n ∈ content) :
    nodeShows n <:+: contentShows content := by
  induction content with
  | nil => cases h
  | cons m ns ih =>
      rw [contentShows]
      rcases List.mem_cons.mp h with rfl | hns
      · exact (List.prefix_append _ _).isInfix
      · exact List.infix_append_of_infix_right (ih hns)

/-- What a child element shows is seen in one piece. -/
lemma nodeShows_isInfix_of_mem_elements {e c : Element} (h : c ∈ e.elements) :
    nodeShows c.toNode <:+: contentShows e.content :=
  nodeShows_isInfix_of_mem (toNode_mem_of_mem_elements h)

/-- A mention shows its name. -/
lemma nodeShows_of_mention? {x : Element} {name : Text} (h : x.mention? = some name) :
    nodeShows x.toNode = visible name := by
  rw [Element.mention?, Element.role] at h
  rw [Element.toNode, nodeShows]
  cases hrole : Role.ofName x.tag.localName with
  | parameter =>
      simp only [hrole] at h
      rw [← Option.some.inj h]
  | see =>
      simp only [hrole] at h
      split at h
      · rename_i hempty
        simp only [if_pos hempty, Option.some.inj h]
      · cases h
  | block | list | code | seeAlso | plain => simp only [hrole, reduceCtorEq] at h

/-- Whatever is shown of the bodies of blocks and see-alsos is seen around them. -/
lemma contentShows_isInfix_nodeShows {c : Element} (hrole : c.role = .block ∨ c.role = .seeAlso) :
    contentShows c.content <:+: nodeShows c.toNode := by
  rw [Element.role] at hrole
  rw [Element.toNode, nodeShows]
  rcases hrole with hblock | hseeAlso
  · simp only [hblock, List.infix_rfl]
  · simp only [hseeAlso]
    split
    · rename_i hempty
      rw [List.isEmpty_iff.mp hempty]
      exact List.nil_infix
    · exact List.infix_rfl

/-- What an item shows is seen in its list. -/
lemma isInfix_itemsShow {kind : ListKind} {item : Element} {shown : Text}
    (hname : item.tag.name = "item".toList)
    (hshown : ∀ number, shown <:+: itemShows kind number item.content) {content : List Node}
    (hitem : item.toNode ∈ content) (number : Int) : shown <:+: itemsShow kind number content := by
  induction content generalizing number with
  | nil => cases hitem
  | cons n ns ih =>
      rcases List.mem_cons.mp hitem with rfl | hns
      · rw [Element.toNode, itemsShow_item hname]
        exact List.infix_append_of_infix_left (hshown number)
      · cases n with
        | text t => exact ih hns number
        | element tag content =>
            by_cases htag : tag.name = "item".toList
            · rw [itemsShow_item htag]
              exact List.infix_append_of_infix_right (ih hns (number + 1))
            · rw [itemsShow, if_neg htag]
              exact ih hns number

/-- What an item of a child element that is a list shows is seen in the body. -/
lemma isInfix_contentShows_of_item {e list item : Element} {shown : Text}
    (hlist : list ∈ e.elements) (hrole : list.role = .list)
    (hitem : item ∈ list.childrenNamed "item".toList)
    (hshown : ∀ number, shown <:+: itemShows (ListKind.ofTag list.tag) number item.content) :
    shown <:+: contentShows e.content := by
  obtain ⟨hmem, hname⟩ := List.mem_filter.mp hitem
  have hitems := isInfix_itemsShow (beq_iff_eq.mp hname) hshown (toNode_mem_of_mem_elements hmem)
    (firstNumber list.tag)
  have hnode : nodeShows list.toNode =
      itemsShow (ListKind.ofTag list.tag) (firstNumber list.tag) list.content := by
    rw [Element.role] at hrole
    rw [Element.toNode, nodeShows, hrole]
  rw [← hnode] at hitems
  exact hitems.trans (nodeShows_isInfix_of_mem_elements hlist)

/-- A part shows what its first element shows. -/
lemma partShows_eq_child? (name : String) (item : Element) :
    partShows name item.content =
      (item.child? name.toList).map fun part => contentShows part.content := by
  obtain ⟨tag, content⟩ := item
  induction content with
  | nil => rfl
  | cons n ns ih =>
      cases n with
      | text t => exact ih
      | element t content =>
          rw [child?_element_cons, partShows]
          split
          · rfl
          · exact ih

/-- What is shown of the parts of an item is seen in the item. -/
lemma contentShows_isInfix_itemShows {item part : Element}
    (hpart : item.child? "term".toList = some part ∨ item.child? "description".toList = some part)
    (kind : ListKind) (number : Int) :
    contentShows part.content <:+: itemShows kind number item.content := by
  have hterm := partShows_eq_child? "term" item
  have hdescription := partShows_eq_child? "description" item
  rw [itemShows.eq_def, hterm, hdescription]
  generalize item.child? "term".toList = term at hpart
  generalize item.child? "description".toList = description at hpart
  let parts : ItemParts := ⟨term.map fun part => contentShows part.content,
    description.map fun part => contentShows part.content⟩
  have hmarked : ∀ own, contentShows part.content <:+: parts.markedShows own := fun own => by
    rcases hpart with rfl | rfl
    · exact (parts.isInfix_markedShows own).1
    · exact (parts.isInfix_markedShows own).2
  cases kind with
  | bullet => exact List.infix_cons (hmarked _)
  | numbered => exact List.infix_append_of_infix_right (List.infix_cons (hmarked _))
  | definition =>
      have hpresent : parts.isAbsent = false := by
        rcases hpart with rfl | rfl
        · rfl
        · exact Bool.and_false _
      show _ <:+: if parts.isAbsent then _ else parts.definitionShows
      rw [hpresent, if_neg Bool.false_ne_true]
      rcases hpart with rfl | rfl
      · exact parts.isInfix_definitionShows.1
      · exact parts.isInfix_definitionShows.2

/-- **The name of a mention that is reached** is seen in one piece. -/
theorem Reaches.isInfix_contentShows {e x : Element} (h : Reaches e x) {name : Text}
    (hx : x.mention? = some name) : visible name <:+: contentShows e.content := by
  induction h with
  | child hc =>
      rw [← nodeShows_of_mention? hx]
      exact nodeShows_isInfix_of_mem_elements hc
  | inside hc hrole _ ih =>
      exact ((ih hx).trans (contentShows_isInfix_nodeShows hrole)).trans
        (nodeShows_isInfix_of_mem_elements hc)
  | part hlist hrole hitem hpart _ ih =>
      exact isInfix_contentShows_of_item hlist hrole hitem fun number =>
        (ih hx).trans (contentShows_isInfix_itemShows hpart _ number)
  | @plainItem e list item x hlist hrole hkind hitem hterm hdescription _ ih =>
      refine isInfix_contentShows_of_item hlist hrole hitem fun number => ?_
      rw [hkind, itemShows, partShows_eq_child?, partShows_eq_child?, hterm, hdescription]
      exact ih hx

end Body

/-! ### Sections -/

/-- The sections of a root that are rendered, and their texts. -/
inductive IsRenderedAs (root : Element) (r : Record) : Element → Text → Prop where
  /-- Of the text sections of a kind, the first gives the text in the record. -/
  | text {sec : Element} (kind : TextSection) (h : root.child? kind.tagName = some sec) :
      IsRenderedAs root r sec (r.text kind)
  /-- A keyed section with an id that is not blank, whatever see-alsos have been listed before. -/
  | keyed {sec : Element} (kind : KeyedSection) (h : sec ∈ root.childrenNamed kind.tagName)
      (hid : (kind.key? sec).isSome) (m : SeeAlsos) :
      IsRenderedAs root r sec (render .preserve m sec).1

/-- What is seen of a rendered section. -/
lemma IsRenderedAs.visible_eq {root sec : Element} {text : Text}
    (h : IsRenderedAs root (Record.ofRoot root) sec text) :
    visible text = contentShows sec.content := by
  have hbody : ∀ (s : Spacing) (m : SeeAlsos),
      visible (render s m sec).1 = contentShows sec.content := fun s m => by
    rw [render, visible_trim, visible_writeContent, visible_nil, List.nil_append]
  cases h with
  | text kind hsec =>
      rw [Record.text_ofRoot_eq_child?, hsec]
      exact hbody kind.spacing .empty
  | keyed kind hsec hid m => exact hbody .preserve m

/-- Every value in a map is the text of a keyed section that is rendered. -/
lemma Record.exists_isRenderedAs_of_get? {root : Element} {kind : KeyedSection} {key text : Text}
    (h : ((ofRoot root).entries kind).get? key = some text) :
    ∃ sec, IsRenderedAs root (ofRoot root) sec text ∧
      (kind.key? sec).map MemberId.name = some key := by
  obtain ⟨sec, hsec, hkey, rfl⟩ := exists_section_of_get? h
  obtain ⟨id, hid, -⟩ := Option.map_eq_some_iff.mp hkey
  exact ⟨sec, .keyed kind hsec (by rw [hid]; rfl) .empty, hkey⟩

namespace Comment

/-- **Mentions that are reached are shown.** In the text of every rendered section of an accepted
comment, and so in each text and each value of a map, the name of a mention that is reached from
the section is seen in one piece. -/
theorem mention_isInfix {t : Text} {r : Record} (h : read (some t) = .ok (some r)) :
    ∃ root, readDocument t = .ok root ∧
      (∀ kind key text, (r.entries kind).get? key = some text →
        ∃ sec, IsRenderedAs root r sec text ∧ (kind.key? sec).map MemberId.name = some key) ∧
      ∀ sec text, IsRenderedAs root r sec text →
        ∀ x name, Reaches sec x → x.mention? = some name → visible name <:+: visible text := by
  obtain ⟨-, root, hroot, rfl⟩ := read_eq_ok_some_iff.mp h
  refine ⟨root, hroot, fun kind key text htext => Record.exists_isRenderedAs_of_get? htext, ?_⟩
  intro sec text hsec x name hreach hx
  rw [hsec.visible_eq]
  exact hreach.isInfix_contentShows hx

/-- A mention of a parameter. -/
def mentionOf (name : String) : Element where
  tag :=
    { name := "paramref".toList, attributes := .ofList [("name".toList, name.toList)],
      selfClosing := true }

/-- A comment with a mention in a paragraph. -/
def paragraphRoot : Element where
  tag := { name := "doc".toList }
  content :=
    [.element { name := "remarks".toList }
      [.element { name := "para".toList } [.text "or ".toList, (mentionOf "T:key").toNode]]]

lemma writesNode_paragraphRoot : WritesNode paragraphRoot.toNode
    "<doc><remarks><para>or <paramref name=\"T:key\"/></para></remarks></doc>".toList := by
  have hwritten : paragraphRoot.toNode.written =
      "<doc><remarks><para>or <paramref name=\"T:key\"/></para></remarks></doc>".toList := by
    decide +kernel
  rw [← hwritten]
  exact writesNode_written _ rfl

theorem mention_isInfix_paragraphRoot :
    read (some "<doc><remarks><para>or <paramref name=\"T:key\"/></para></remarks></doc>".toList) =
        .ok (some (Record.ofRoot paragraphRoot)) ∧
      visible "key".toList <:+: visible (Record.ofRoot paragraphRoot).remarks := by
  have hread := read_of_writesNode writesNode_paragraphRoot rfl
  obtain ⟨root, hroot, -, hshown⟩ := mention_isInfix hread
  obtain rfl : paragraphRoot = root := Except.ok.inj
    ((readDocument_eq_ok writesNode_paragraphRoot rfl).symm.trans hroot)
  have hname : (mentionOf "T:key").mention? = some "key".toList := rfl
  exact ⟨hread, hshown _ _ (.text .remarks rfl) _ _
    (.inside List.mem_cons_self (.inl rfl) (.child List.mem_cons_self)) hname⟩

/-! ### What is not reached -/

/-- A section with a mention in inline code. -/
def inlineCodeRemarks : Element where
  tag := { name := "remarks".toList }
  content := [.element { name := ['c'] } [(mentionOf "value").toNode]]

/-- A comment with this section. -/
def inlineCodeRoot : Element where
  tag := { name := "doc".toList }
  content := [inlineCodeRemarks.toNode]

lemma writesNode_inlineCodeRoot : WritesNode inlineCodeRoot.toNode
    "<doc><remarks><c><paramref name=\"value\"/></c></remarks></doc>".toList := by
  have hwritten : inlineCodeRoot.toNode.written =
      "<doc><remarks><c><paramref name=\"value\"/></c></remarks></doc>".toList := by
    decide +kernel
  rw [← hwritten]
  exact writesNode_written _ rfl

/-- Nothing stands in the section but the inline code and the mention. -/
lemma role_of_isBelow_inlineCodeRemarks {x : Element} (h : IsBelow inlineCodeRemarks x) :
    x.role = .code ∨ x.role = .parameter := by
  cases h with
  | child hc =>
      obtain rfl := List.mem_singleton.mp hc
      exact .inl rfl
  | inside hc hx =>
      obtain rfl := List.mem_singleton.mp hc
      cases hx with
      | child hc =>
          obtain rfl := List.mem_singleton.mp hc
          exact .inr rfl
      | inside hc hx =>
          obtain rfl := List.mem_singleton.mp hc
          cases hx with
          | child hc => cases hc
          | inside hc => cases hc

/-- So not all mentions below a rendered section are shown, even if there is no list below it and
they do not stand in references. -/
theorem not_forall_mention_isInfix :
    ¬ ∀ t r, read (some t) = .ok (some r) → ∃ root, readDocument t = .ok root ∧
      ∀ sec text, IsRenderedAs root r sec text → (∀ x, IsBelow sec x → x.role ≠ .list) →
        ∀ x name, IsBelow sec x →
          (∀ y, IsBelow sec y → IsBelow y x → y.role ≠ .see ∧ y.role ≠ .seeAlso) →
          x.tag.name ∈ ["paramref".toList, "typeparamref".toList, "see".toList] →
          x.mention? = some name → visible name <:+: visible text := by
  intro hall
  have hread := read_of_writesNode writesNode_inlineCodeRoot rfl
  obtain ⟨root, hroot, hshown⟩ := hall _ _ hread
  obtain rfl : inlineCodeRoot = root := Except.ok.inj
    ((readDocument_eq_ok writesNode_inlineCodeRoot rfl).symm.trans hroot)
  have hrole : ∀ role, role ≠ Role.code → role ≠ Role.parameter →
      ∀ y, IsBelow inlineCodeRemarks y → y.role ≠ role := by
    rintro _ hcode hparameter y hy rfl
    exact (role_of_isBelow_inlineCodeRemarks hy).elim hcode hparameter
  have hlist := hrole .list (by decide) (by decide)
  have hsee := hrole .see (by decide) (by decide)
  have hseeAlso := hrole .seeAlso (by decide) (by decide)
  have hbelow : IsBelow inlineCodeRemarks (mentionOf "value") :=
    .inside List.mem_cons_self (.child List.mem_cons_self)
  have hvalue := hshown inlineCodeRemarks _ (.text .remarks rfl) hlist
    (mentionOf "value") "value".toList hbelow
    (fun y hy _ => ⟨hsee y hy, hseeAlso y hy⟩) (by decide) rfl
  rw [Record.text, show (Record.ofRoot inlineCodeRoot).remarks = [] by decide +kernel] at hvalue
  exact absurd hvalue (by decide)

end Comment

end DocComment
