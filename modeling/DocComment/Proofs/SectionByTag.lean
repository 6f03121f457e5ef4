import DocComment.Proofs.Section

/-!
The fields of a record, each looked up by itself.

* **One pass, nine look-ups.** The sections of a root are taken in one after another, with one list
  of references that all bodies share. What comes out of it for a text is what the first child
  with its tag gives alone, and for a map what the children with its tag give alone, one after
  another (`Record.fields_ofRoot`).
* **Nothing else counts.** References that have been listed before, text at the level of the root
  and children with other tags leave all texts and maps but the see-alsos as they are.
-/

namespace DocComment

open Xml Body

/-! ### One tag -/

/-- A text section is looked for by the name of its tag. -/
lemma TextSection.text?_eq (kind : TextSection) :
    kind.text? = Option.map (bodyText kind.spacing) ∘
      Option.guard fun e => e.tag.name == kind.tagName := by
  funext e
  by_cases h : e.tag.name = kind.tagName
  · have hkind : Section.of? e = some (.text kind) := Section.ofName?_eq_some_iff.mpr h
    simp [TextSection.text?, hkind, h, Option.guard]
  · have hkind : Section.of? e ≠ some (.text kind) := fun hs =>
      h (Section.ofName?_eq_some_iff.mp hs)
    simp [TextSection.text?, hkind, h, Option.guard]

/-- The first section of a kind is the first child with its tag. -/
lemma TextSection.findSome?_text? (kind : TextSection) (root : Element) :
    root.elements.findSome? kind.text? =
      (root.child? kind.tagName).map (bodyText kind.spacing) := by
  rw [text?_eq, ← List.map_findSome?, List.findSome?_guard]
  rfl

/-- The entries of a keyed section are those of the children with its tag. -/
lemma KeyedSection.filterMap_entryIn? (kind : KeyedSection) (root : Element) :
    root.elements.filterMap kind.entryIn? =
      (root.childrenNamed kind.tagName).filterMap fun e =>
        (kind.key? e).map fun id => (MemberId.name id, bodyText .preserve e) := by
  rw [Element.childrenNamed, List.filterMap_filter]
  refine congrArg (fun f => root.elements.filterMap f) (funext fun e => ?_)
  have hkind : Section.of? e = some (.keyed kind) ↔ e.tag.name = kind.tagName :=
    Section.ofName?_eq_some_iff
  simp only [entryIn?, hkind, beq_iff_eq]

/-! ### What does not count -/

/-- Whether two records have the same texts and the same maps, apart from the see-alsos. -/
def Record.SameFields (r d : Record) : Prop :=
  (∀ kind, r.text kind = d.text kind) ∧ ∀ kind, r.entries kind = d.entries kind

/-- Whether a piece of content is a section that gives a text or an entry. -/
def givesField : Node → Bool
  | .text _ => false
  | .element tag _ =>
    match Section.ofName? tag.name with
    | some (.text _) => true
    | some (.keyed _) => true
    | _ => false

/-- A root without what gives neither a text nor an entry. -/
def Xml.Element.onlyFields (root : Element) : Element :=
  { root with content := root.content.filter givesField }

lemma givesField_of_section {tag : Tag} {sec : Section} (h : tag.name = sec.tagName)
    (hsec : sec ≠ .seeAlso) (content : List Node) : givesField (.element tag content) = true := by
  rw [givesField, Section.ofName?_eq_some_iff.mpr h]
  cases sec with
  | text kind => rfl
  | keyed kind => rfl
  | seeAlso => exact absurd rfl hsec

/-- The children with the tag of a text or of a keyed section are left. -/
lemma childrenNamed_onlyFields (root : Element) (sec : Section) (hsec : sec ≠ .seeAlso) :
    root.onlyFields.childrenNamed sec.tagName = root.childrenNamed sec.tagName := by
  rw [Element.childrenNamed, Element.childrenNamed]
  show ((root.content.filter givesField).filterMap Node.element?).filter _ =
    (root.content.filterMap Node.element?).filter _
  induction root.content with
  | nil => rfl
  | cons n ns ih =>
      cases hn : givesField n with
      | true =>
          rw [List.filter_cons_of_pos hn]
          cases n with
          | text t => exact ih
          | element tag content =>
              simp only [List.filterMap_cons, Node.element?, List.filter_cons, ih]
      | false =>
          rw [List.filter_cons_of_neg (by simp [hn]), ih]
          cases n with
          | text t => rfl
          | element tag content =>
              have hname : ¬ tag.name = sec.tagName := fun h => by
                rw [givesField_of_section h hsec] at hn
                cases hn
              simp [Node.element?, hname]

lemma child?_eq_head? (root : Element) (name : Text) :
    root.child? name = (root.childrenNamed name).head? := by
  rw [Element.childrenNamed, List.head?_filter]
  rfl

/-! ### The fields of a root -/

namespace Record

/-- The text of a kind is that of the first child with its tag. -/
lemma text_ofRoot_eq_child? (root : Element) (kind : TextSection) :
    (ofRoot root).text kind =
      ((root.child? kind.tagName).map (bodyText kind.spacing)).getD [] := by
  rw [text_ofRoot, TextSection.findSome?_text?]

/-- The map of a kind has the entries of the children with its tag. -/
lemma entries_ofRoot_eq_childrenNamed (root : Element) (kind : KeyedSection) :
    (ofRoot root).entries kind =
      .ofList ((root.childrenNamed kind.tagName).filterMap fun e =>
        (kind.key? e).map fun id => (MemberId.name id, bodyText .preserve e)) := by
  rw [entries_ofRoot, KeyedSection.filterMap_entryIn?]

/-- Every value in a map is the text of one of its sections. -/
lemma exists_section_of_get? {root : Element} {kind : KeyedSection} {key text : Text}
    (h : ((ofRoot root).entries kind).get? key = some text) :
    ∃ sec ∈ root.childrenNamed kind.tagName,
      (kind.key? sec).map MemberId.name = some key ∧ text = bodyText .preserve sec := by
  rw [entries_ofRoot_eq_childrenNamed, OrderedMap.get?_ofList] at h
  obtain ⟨sec, hsec, hentry⟩ := List.mem_filterMap.mp (OrderedMap.mem_of_lastValue? h)
  obtain ⟨id, hid, hpair⟩ := Option.map_eq_some_iff.mp hentry
  cases hpair
  exact ⟨sec, hsec, by rw [hid]; rfl, rfl⟩

/-- References that have been listed before make no difference to the texts and maps. -/
lemma sameFields_foldl_take (root : Element) (m : SeeAlsos) :
    SameFields (root.elements.foldl Extraction.take { record := { seeAlsos := m } }).record
      (ofRoot root) := by
  constructor
  · intro kind
    have hempty : ({ seeAlsos := m } : Record).text kind = [] := by cases kind <;> rfl
    rw [Extraction.text_foldl_take, text_ofRoot, hempty]
    simp
  · intro kind
    have hempty : ({ seeAlsos := m } : Record).entries kind = .empty := by cases kind <;> rfl
    rw [Extraction.entries_foldl_take, entries_ofRoot, hempty]
    rfl

/-- Nor does what gives neither a text nor an entry. -/
lemma sameFields_onlyFields (root : Element) :
    SameFields (ofRoot root.onlyFields) (ofRoot root) := by
  constructor
  · intro kind
    have hsame : root.onlyFields.childrenNamed kind.tagName = root.childrenNamed kind.tagName :=
      childrenNamed_onlyFields root (.text kind) (by simp)
    rw [text_ofRoot_eq_child?, text_ofRoot_eq_child?, child?_eq_head?, child?_eq_head?, hsame]
  · intro kind
    have hsame : root.onlyFields.childrenNamed kind.tagName = root.childrenNamed kind.tagName :=
      childrenNamed_onlyFields root (.keyed kind) (by simp)
    rw [entries_ofRoot_eq_childrenNamed, entries_ofRoot_eq_childrenNamed, hsame]

/-- **One pass gives what nine look-ups give.** The text of a kind is that of the first child with
its tag, laid out by itself, and empty without one. The map of a kind has the entries of the
children with its tag that have an id which is not blank, one after another, each laid out by
itself. Neither references listed before nor any other piece of the root makes a difference. -/
theorem fields_ofRoot (root : Element) :
    (∀ kind : TextSection, (ofRoot root).text kind =
      ((root.child? kind.tagName).map fun e => (render kind.layout .empty e).1).getD []) ∧
    (∀ kind : KeyedSection, (ofRoot root).entries kind =
      .ofList ((root.childrenNamed kind.tagName).filterMap fun e =>
        ((e.attribute? kind.idName).filter fun id => !Text.isBlank id).map fun id =>
          (MemberId.name id, (render .preserve .empty e).1))) ∧
    (∀ m : SeeAlsos, SameFields
      (root.elements.foldl Extraction.take { record := { seeAlsos := m } }).record
      (ofRoot root)) ∧
    SameFields (ofRoot root.onlyFields) (ofRoot root) := by
  refine ⟨fun kind => ?_, fun kind => ?_, sameFields_foldl_take root, sameFields_onlyFields root⟩
  · rw [← kind.spacing_eq_layout]
    exact text_ofRoot_eq_child? root kind
  · rw [← kind.keyAttribute_eq_idName]
    exact entries_ofRoot_eq_childrenNamed root kind

end Record

end DocComment
