import DocComment.Proofs.Body.PartOrder

/-!
Which elements writing a body comes to.

* **Reaching.** Writing the body of an element comes to its child elements. It goes on into the
  bodies of blocks and see-alsos, and into lists: there into the first term and the first
  description of each item, and into the items of definition lists that have neither. It does not
  go into anything else, the text of which is taken as it is (`Reaches`).
* **What is reached is met.** A see-also that is reached is in the trace of the body
  (`Reaches.exists_mem_contentTrace`), and the trace has no other (`reaches_of_mem_contentTrace`).
-/

namespace DocComment

open Xml

/-- The role of an element in a body. -/
def Xml.Element.role (e : Element) : Role :=
  Role.ofName e.tag.localName

/-- The elements with a role are known by their local names. -/
lemma Xml.Element.role_eq_iff {e : Element} {role : Role} (hrole : role ≠ .plain) :
    e.role = role ↔ e.tag.localName ∈ role.tagNames :=
  Role.ofName_eq_iff hrole

lemma Xml.Element.role_eq_seeAlso_iff {e : Element} :
    e.role = .seeAlso ↔ e.tag.localName = "seealso".toList :=
  (role_eq_iff (by decide)).trans List.mem_singleton

namespace Body

/-! ### Reaching -/

/-- Whether writing the body of an element comes to another element. -/
inductive Reaches : Element → Element → Prop where
  | child {e c : Element} (hc : c ∈ e.elements) : Reaches e c
  /-- The bodies of blocks and see-alsos are written. -/
  | inside {e c x : Element} (hc : c ∈ e.elements) (hrole : c.role = .block ∨ c.role = .seeAlso)
      (hx : Reaches c x) : Reaches e x
  /-- Of an item, the first term and the first description are written. -/
  | part {e list item part x : Element} (hlist : list ∈ e.elements) (hrole : list.role = .list)
      (hitem : item ∈ list.childrenNamed "item".toList)
      (hpart : item.child? "term".toList = some part ∨
        item.child? "description".toList = some part)
      (hx : Reaches part x) : Reaches e x
  /-- The body of a definition with neither of them is written. -/
  | plainItem {e list item x : Element} (hlist : list ∈ e.elements) (hrole : list.role = .list)
      (hkind : ListKind.ofTag list.tag = .definition)
      (hitem : item ∈ list.childrenNamed "item".toList)
      (hterm : item.child? "term".toList = none)
      (hdescription : item.child? "description".toList = none)
      (hx : Reaches item x) : Reaches e x

/-! ### Pieces of a trace -/

lemma contentTrace_eq_flatMap (o : PartOrder) (s : Spacing) (content : List Node) :
    contentTrace o s content = content.flatMap (nodeTrace o s) := by
  induction content with
  | nil => rfl
  | cons n ns ih => rw [contentTrace, ih, List.flatMap_cons]

/-- A child element is a piece of the content. -/
lemma toNode_mem_of_mem_elements {e c : Element} (h : c ∈ e.elements) :
    c.toNode ∈ e.content := by
  obtain ⟨n, hn, hc⟩ := List.mem_filterMap.mp h
  cases n with
  | text t => cases hc
  | element tag content =>
      cases hc
      exact hn

/-- A piece of the content that is an element is a child element. -/
lemma mem_elements_of_toNode_mem {e c : Element} (h : c.toNode ∈ e.content) : c ∈ e.elements :=
  List.mem_filterMap.mpr ⟨_, h, rfl⟩

/-- What is met in a child element is met in the body. -/
lemma mem_contentTrace_of_mem_elements {o : PartOrder} {s : Spacing} {e c : Element} {ev : Event}
    (hc : c ∈ e.elements) (hev : ev ∈ nodeTrace o s c.toNode) :
    ev ∈ contentTrace o s e.content := by
  rw [contentTrace_eq_flatMap]
  exact List.mem_flatMap.mpr ⟨c.toNode, toNode_mem_of_mem_elements hc, hev⟩

lemma nodeTrace_of_block {o : PartOrder} {s : Spacing} {e : Element} (h : e.role = .block) :
    nodeTrace o s e.toNode = contentTrace o .preserve e.content := by
  rw [Element.role] at h
  rw [Element.toNode, nodeTrace, h]

lemma nodeTrace_of_seeAlso {o : PartOrder} {s : Spacing} {e : Element} (h : e.role = .seeAlso) :
    nodeTrace o s e.toNode = contentTrace o s e.content ++ [.seeAlso s e] := by
  rw [Element.role] at h
  rw [Element.toNode, nodeTrace, h]

lemma nodeTrace_of_list {o : PartOrder} {s : Spacing} {e : Element} (h : e.role = .list) :
    nodeTrace o s e.toNode = itemsTrace o (ListKind.ofTag e.tag) e.content := by
  rw [Element.role] at h
  rw [Element.toNode, nodeTrace, h]

/-- What is met in an item is met in its list. -/
lemma mem_itemsTrace_of_mem {o : PartOrder} {kind : ListKind} {item : Element} {ev : Event}
    (hname : item.tag.name = "item".toList) (hev : ev ∈ itemTrace o kind item.content)
    {content : List Node} (hitem : item.toNode ∈ content) : ev ∈ itemsTrace o kind content := by
  induction content with
  | nil => cases hitem
  | cons n ns ih =>
      rcases List.mem_cons.mp hitem with rfl | hns
      · rw [Element.toNode, itemsTrace_item hname]
        exact List.mem_append_left _ (List.mem_cons_of_mem _ hev)
      · have hmem := ih hns
        cases n with
        | text t => exact hmem
        | element tag content =>
            by_cases htag : tag.name = "item".toList
            · rw [itemsTrace_item htag]
              exact List.mem_append_right _ hmem
            · rw [itemsTrace, if_neg htag]
              exact hmem

/-- What is met in an item of a child element that is a list is met in the body. -/
lemma mem_contentTrace_of_item {o : PartOrder} {s : Spacing} {e list item : Element} {ev : Event}
    (hlist : list ∈ e.elements) (hrole : list.role = .list)
    (hitem : item ∈ list.childrenNamed "item".toList)
    (hev : ev ∈ itemTrace o (ListKind.ofTag list.tag) item.content) :
    ev ∈ contentTrace o s e.content := by
  obtain ⟨hmem, hname⟩ := List.mem_filter.mp hitem
  refine mem_contentTrace_of_mem_elements hlist ?_
  rw [nodeTrace_of_list hrole]
  exact mem_itemsTrace_of_mem (beq_iff_eq.mp hname) hev (toNode_mem_of_mem_elements hmem)

/-! ### Parts -/

lemma child?_element_cons (name : Text) (tag t : Tag) (content ns : List Node) :
    (⟨tag, .element t content :: ns⟩ : Element).child? name =
      if t.name = name then some ⟨t, content⟩ else (⟨tag, ns⟩ : Element).child? name := by
  by_cases h : t.name = name
  · simp [Element.child?, Element.elements, Node.element?, h]
  · simp [Element.child?, Element.elements, Node.element?, h]

/-- In the search for one part, what is met is what its first element meets. -/
lemma partsTrace_of_child? {o : PartOrder} {name : Text} {item part : Element}
    (h : item.child? name = some part) :
    partsTrace o [name] item.content = contentTrace o .preserve part.content := by
  obtain ⟨tag, content⟩ := item
  induction content with
  | nil => cases h
  | cons n ns ih =>
      cases n with
      | text t => exact ih h
      | element t content =>
          rw [child?_element_cons] at h
          by_cases hname : t.name = name
          · rw [if_pos hname] at h
            cases h
            exact partsTrace_cons_of_eq hname o content ns
          · rw [if_neg hname] at h
            exact (partsTrace_cons_of_ne hname o content ns).trans (ih h)

lemma lacks_of_child? {name : Text} {item : Element} (h : item.child? name = none) :
    lacks name item.content = true := by
  obtain ⟨tag, content⟩ := item
  induction content with
  | nil => rfl
  | cons n ns ih =>
      cases n with
      | text t => exact ih h
      | element t content =>
          rw [child?_element_cons] at h
          by_cases hname : t.name = name
          · rw [if_pos hname] at h
            cases h
          · rw [if_neg hname] at h
            have hns : lacks name ns = true := ih h
            simpa [lacks, hname] using hns

/-- What is met in a part is met in its item. -/
lemma mem_itemTrace_of_part {kind : ListKind} {item part : Element} {ev : Event}
    (hpart : item.child? "term".toList = some part ∨
      item.child? "description".toList = some part)
    (hev : ev ∈ contentTrace .termFirst .preserve part.content) :
    ev ∈ itemTrace .termFirst kind item.content := by
  rw [itemTrace, passes_termFirst]
  refine List.mem_append_left _ ?_
  rcases hpart with hterm | hdescription
  · refine List.mem_append_left _ ?_
    rwa [termTrace, partsTrace_of_child? hterm]
  · refine List.mem_append_right _ ?_
    rwa [descriptionTrace, partsTrace_of_child? hdescription]

/-- What is met in the body of a definition without parts is met in it. -/
lemma mem_itemTrace_of_lacksParts {item : Element} {ev : Event}
    (hterm : item.child? "term".toList = none)
    (hdescription : item.child? "description".toList = none)
    (hev : ev ∈ contentTrace .termFirst .preserve item.content) :
    ev ∈ itemTrace .termFirst .definition item.content := by
  have hlacks : lacksParts item.content = true := by
    rw [lacksParts, lacks_of_child? hterm, lacks_of_child? hdescription]
    rfl
  rw [itemTrace, if_pos ⟨rfl, hlacks⟩]
  exact List.mem_append_right _ hev

/-! ### What is reached is met -/

/-- **A see-also that is reached is met**, whatever the spacing around it. -/
theorem Reaches.exists_mem_contentTrace {e x : Element} (h : Reaches e x)
    (hx : x.role = .seeAlso) (s : Spacing) :
    ∃ s', .seeAlso s' x ∈ contentTrace .termFirst s e.content := by
  induction h generalizing s with
  | child hc =>
      refine ⟨s, mem_contentTrace_of_mem_elements hc ?_⟩
      rw [nodeTrace_of_seeAlso hx]
      exact List.mem_append_right _ (List.mem_singleton_self _)
  | inside hc hrole _ ih =>
      rcases hrole with hblock | hseeAlso
      · obtain ⟨s', hmet⟩ := ih hx .preserve
        refine ⟨s', mem_contentTrace_of_mem_elements hc ?_⟩
        rwa [nodeTrace_of_block hblock]
      · obtain ⟨s', hmet⟩ := ih hx s
        refine ⟨s', mem_contentTrace_of_mem_elements hc ?_⟩
        rw [nodeTrace_of_seeAlso hseeAlso]
        exact List.mem_append_left _ hmet
  | part hlist hrole hitem hpart _ ih =>
      obtain ⟨s', hmet⟩ := ih hx .preserve
      exact ⟨s', mem_contentTrace_of_item hlist hrole hitem (mem_itemTrace_of_part hpart hmet)⟩
  | plainItem hlist hrole hkind hitem hterm hdescription _ ih =>
      obtain ⟨s', hmet⟩ := ih hx .preserve
      refine ⟨s', mem_contentTrace_of_item hlist hrole hitem ?_⟩
      rw [hkind]
      exact mem_itemTrace_of_lacksParts hterm hdescription hmet

/-! ### What is met is reached -/

lemma child?_of_lacks {name : Text} {item : Element} (h : lacks name item.content = true) :
    item.child? name = none := by
  refine List.find?_eq_none.mpr fun part hpart hname => ?_
  have hne := List.all_eq_true.mp h _ (toNode_mem_of_mem_elements hpart)
  simp only [Element.toNode, decide_eq_true_eq] at hne
  exact hne (beq_iff_eq.mp hname)

/-- Whether writing an item of a list comes to an element. -/
inductive ReachesInItem (kind : ListKind) (item x : Element) : Prop where
  | part {part : Element}
      (hpart : item.child? "term".toList = some part ∨
        item.child? "description".toList = some part)
      (hx : Reaches part x) : ReachesInItem kind item x
  | plain (hkind : kind = .definition) (hterm : item.child? "term".toList = none)
      (hdescription : item.child? "description".toList = none) (hx : Reaches item x) :
      ReachesInItem kind item x

lemma ReachesInItem.reaches {e list item x : Element}
    (h : ReachesInItem (ListKind.ofTag list.tag) item x) (hlist : list ∈ e.elements)
    (hrole : list.role = .list) (hitem : item ∈ list.childrenNamed "item".toList) :
    Reaches e x := by
  cases h with
  | part hpart hx => exact .part hlist hrole hitem hpart hx
  | plain hkind hterm hdescription hx =>
      exact .plainItem hlist hrole hkind hitem hterm hdescription hx

section Met

variable {s' : Spacing} {x : Element}

/-- A see-also that is met in an item is reached there, if this is so for the parts of the item and
for its body. -/
lemma reachesInItem_of_mem_itemTrace {kind : ListKind} (item : Element)
    (part : ∀ name, .seeAlso s' x ∈ partsTrace .termFirst [name] item.content →
      (∃ part, item.child? name = some part ∧ Reaches part x) ∧ x.role = .seeAlso)
    (body : .seeAlso s' x ∈ contentTrace .termFirst .preserve item.content →
      Reaches item x ∧ x.role = .seeAlso)
    (h : .seeAlso s' x ∈ itemTrace .termFirst kind item.content) :
    ReachesInItem kind item x ∧ x.role = .seeAlso := by
  rw [itemTrace, passes_termFirst] at h
  rcases List.mem_append.mp h with hparts | hplain
  · rcases List.mem_append.mp hparts with hterm | hdescription
    · obtain ⟨⟨_, hchild, hreach⟩, hx⟩ := part _ hterm
      exact ⟨.part (.inl hchild) hreach, hx⟩
    · obtain ⟨⟨_, hchild, hreach⟩, hx⟩ := part _ hdescription
      exact ⟨.part (.inr hchild) hreach, hx⟩
  · split at hplain
    · rename_i hkind
      obtain ⟨hreach, hx⟩ := body hplain
      obtain ⟨hterm, hdescription⟩ := Bool.and_eq_true_iff.mp hkind.2
      exact ⟨.plain hkind.1 (child?_of_lacks hterm) (child?_of_lacks hdescription) hreach, hx⟩
    · cases hplain

-- A content is gone through as a piece of that of an element, so that what is reached from it can
-- be told.
mutual

lemma reaches_of_mem_nodeTrace (s : Spacing) : ∀ n : Node,
    .seeAlso s' x ∈ nodeTrace .termFirst s n → ∀ e : Element, n ∈ e.content →
      Reaches e x ∧ x.role = .seeAlso
  | .text _, h, _, _ => nomatch h
  | .element tag content, h, e, hn => by
      have hc : ⟨tag, content⟩ ∈ e.elements := mem_elements_of_toNode_mem hn
      have hbody := fun s hmet =>
        reaches_of_mem_contentTrace s content hmet ⟨tag, content⟩ (.refl _)
      have hitems := fun hmet =>
        reaches_of_mem_itemsTrace (ListKind.ofTag tag) content hmet ⟨tag, content⟩ (.refl _)
      cases hrole : Role.ofName tag.localName with
      | block =>
          simp only [nodeTrace, hrole] at h
          exact (hbody .preserve h).imp_left (.inside hc (.inl hrole))
      | list =>
          simp only [nodeTrace, hrole] at h
          obtain ⟨⟨item, hitem, hreach⟩, hx⟩ := hitems h
          exact ⟨hreach.reaches hc hrole hitem, hx⟩
      | seeAlso =>
          simp only [nodeTrace, hrole] at h
          rcases List.mem_append.mp h with hmet | hend
          · exact (hbody s hmet).imp_left (.inside hc (.inr hrole))
          · cases List.mem_singleton.mp hend
            exact ⟨.child hc, hrole⟩
      | code => simp [nodeTrace, hrole] at h
      | parameter => simp [nodeTrace, hrole] at h
      | see => simp [nodeTrace, hrole] at h
      | plain => simp [nodeTrace, hrole] at h

/-- **A see-also that is met is reached**, and nothing but see-alsos ends up in the list. -/
theorem reaches_of_mem_contentTrace (s : Spacing) : ∀ ns : List Node,
    .seeAlso s' x ∈ contentTrace .termFirst s ns → ∀ e : Element, ns ⊆ e.content →
      Reaches e x ∧ x.role = .seeAlso
  | [], h, _, _ => nomatch h
  | n :: ns, h, e, hsub => by
      obtain ⟨hn, hns⟩ := List.cons_subset.mp hsub
      rcases List.mem_append.mp h with hfirst | hrest
      · exact reaches_of_mem_nodeTrace s n hfirst e hn
      · exact reaches_of_mem_contentTrace s ns hrest e hns

lemma reaches_of_mem_itemsTrace (kind : ListKind) : ∀ ns : List Node,
    .seeAlso s' x ∈ itemsTrace .termFirst kind ns → ∀ list : Element, ns ⊆ list.content →
      (∃ item ∈ list.childrenNamed "item".toList, ReachesInItem kind item x) ∧ x.role = .seeAlso
  | [], h, _, _ => nomatch h
  | .text _ :: ns, h, list, hsub =>
      reaches_of_mem_itemsTrace kind ns h list (List.cons_subset.mp hsub).2
  | .element tag content :: ns, h, list, hsub => by
      obtain ⟨hn, hns⟩ := List.cons_subset.mp hsub
      have hrest := fun hmet => reaches_of_mem_itemsTrace kind ns hmet list hns
      by_cases hname : tag.name = "item".toList
      · have hitem : (⟨tag, content⟩ : Element) ∈ list.childrenNamed "item".toList :=
          List.mem_filter.mpr ⟨mem_elements_of_toNode_mem hn, beq_iff_eq.mpr hname⟩
        have hmet : .seeAlso s' x ∈ itemTrace .termFirst kind content ∨
            .seeAlso s' x ∈ itemsTrace .termFirst kind ns := by
          simpa [itemsTrace_item hname] using h
        rcases hmet with hfirst | hlater
        · have hreach := reachesInItem_of_mem_itemTrace ⟨tag, content⟩
            (fun name hpart => reaches_of_mem_partsTrace name content hpart tag)
            (fun hbody => reaches_of_mem_contentTrace .preserve content hbody _ (.refl _)) hfirst
          exact hreach.imp_left fun hreach => ⟨_, hitem, hreach⟩
        · exact hrest hlater
      · rw [itemsTrace, if_neg hname] at h
        exact hrest h

lemma reaches_of_mem_partsTrace (name : Text) : ∀ ns : List Node,
    .seeAlso s' x ∈ partsTrace .termFirst [name] ns → ∀ tag : Tag,
      (∃ part, (⟨tag, ns⟩ : Element).child? name = some part ∧ Reaches part x) ∧
        x.role = .seeAlso
  | [], h, _ => nomatch h
  | .text _ :: ns, h, tag => reaches_of_mem_partsTrace name ns h tag
  | .element t content :: ns, h, tag => by
      rw [child?_element_cons]
      by_cases hname : t.name = name
      · rw [partsTrace_cons_of_eq hname] at h
        obtain ⟨hreach, hx⟩ :=
          reaches_of_mem_contentTrace .preserve content h ⟨t, content⟩ (.refl _)
        exact ⟨⟨_, if_pos hname, hreach⟩, hx⟩
      · rw [partsTrace_cons_of_ne hname] at h
        rw [if_neg hname]
        exact reaches_of_mem_partsTrace name ns h tag

end

end Met

end Body

end DocComment
