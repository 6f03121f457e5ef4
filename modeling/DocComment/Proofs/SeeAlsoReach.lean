import DocComment.Proofs.Body.Reach
import DocComment.Proofs.Comment
import DocComment.Proofs.Section

/-!
Which see-alsos of a comment are listed.

* **Rendered sections.** The first text section of each kind and the keyed sections with an id are
  rendered (`IsRendered`).
* **What is reached is listed.** Under the root, and wherever writing a rendered section comes to,
  no see-also is missed (`Comment.seeAlsoKey_mem_keys`).
* **What is not reached.** A see-also in the head of a list, in an item that shows its own text, in
  a second term, or within text that is taken as it is, is not listed
  (`Comment.not_forall_isBelow_listed`).
-/

namespace DocComment

open Xml Body

/-! ### Sections -/

/-- Whether a child of a root is a text or a keyed section that is rendered. -/
inductive IsRendered (root : Element) : Element → Prop where
  /-- Of the text sections of a kind, the first. -/
  | text {sec : Element} (kind : TextSection) (h : root.child? kind.tagName = some sec) :
      IsRendered root sec
  /-- A keyed section with an id that is not blank. -/
  | keyed {sec : Element} (kind : KeyedSection) (h : sec ∈ root.childrenNamed kind.tagName)
      (hid : (kind.key? sec).isSome) : IsRendered root sec

lemma mem_sectionsTrace_of_mem {o : PartOrder} {e : Element} {ev : Event}
    (hev : ∀ read, ev ∈ sectionTrace o read e) {es : List Element} (he : e ∈ es)
    (read : List TextSection) : ev ∈ sectionsTrace o read es := by
  induction es generalizing read with
  | nil => cases he
  | cons e' es ih =>
      rw [sectionsTrace]
      rcases List.mem_cons.mp he with rfl | hes
      · exact List.mem_append_left _ (hev read)
      · exact List.mem_append_right _ (ih hes _)

/-- What is met in the first text section of a kind is met in all sections. -/
lemma mem_sectionsTrace_of_find? {o : PartOrder} {kind : TextSection} {sec : Element} {ev : Event}
    (hev : ev ∈ contentTrace o kind.spacing sec.content) {es : List Element}
    (hsec : es.find? (fun e => e.tag.name == kind.tagName) = some sec)
    {read : List TextSection} (hread : kind ∉ read) : ev ∈ sectionsTrace o read es := by
  induction es generalizing read with
  | nil => cases hsec
  | cons e es ih =>
      rw [sectionsTrace]
      by_cases hname : e.tag.name = kind.tagName
      · rw [List.find?_cons_of_pos (by simpa using hname)] at hsec
        obtain rfl : e = sec := Option.some.inj hsec
        have hkind : Section.of? e = some (.text kind) := Section.ofName?_eq_some_iff.mpr hname
        refine List.mem_append_left _ ?_
        simpa only [sectionTrace, hkind, if_neg hread] using hev
      · rw [List.find?_cons_of_neg (by simpa using hname)] at hsec
        refine List.mem_append_right _ (ih hsec ?_)
        have hkind : Section.of? e ≠ some (.text kind) := fun h =>
          hname (Section.ofName?_eq_some_iff.mp h)
        rw [readAfter]
        split
        · rename_i k hk
          split
          · exact hread
          · have hne : kind ≠ k := fun h => hkind (h ▸ hk)
            simp [hne, hread]
        · exact hread

lemma Section.of?_of_mem_childrenNamed {root e : Element} (sec : Section)
    (h : e ∈ root.childrenNamed sec.tagName) :
    e ∈ root.elements ∧ Section.of? e = some sec := by
  obtain ⟨hmem, hname⟩ := List.mem_filter.mp h
  exact ⟨hmem, Section.ofName?_eq_some_iff.mpr (beq_iff_eq.mp hname)⟩

/-- What is met in a rendered section is met in the sections of the root. -/
lemma IsRendered.mem_sectionsTrace {root sec : Element} (h : IsRendered root sec) :
    ∃ s, ∀ ev ∈ contentTrace .termFirst s sec.content,
      ev ∈ sectionsTrace .termFirst [] root.elements := by
  cases h with
  | text kind hsec =>
      exact ⟨kind.spacing, fun ev hev => mem_sectionsTrace_of_find? hev hsec (by simp)⟩
  | keyed kind hsec hid =>
      obtain ⟨hmem, hkind⟩ := Section.of?_of_mem_childrenNamed (.keyed kind) hsec
      refine ⟨.preserve, fun ev hev => mem_sectionsTrace_of_mem (fun read => ?_) hmem []⟩
      simpa only [sectionTrace, hkind, if_pos hid] using hev

/-- What is met in a see-also under the root, its own end included, is met in the sections. -/
lemma mem_sectionsTrace_of_seeAlso {root e : Element}
    (he : e ∈ root.childrenNamed "seealso".toList) {ev : Event}
    (hev : ev ∈ seeAlsoTrace .termFirst .preserve e) :
    ev ∈ sectionsTrace .termFirst [] root.elements := by
  obtain ⟨hmem, hkind⟩ := Section.of?_of_mem_childrenNamed .seeAlso he
  refine mem_sectionsTrace_of_mem (fun read => ?_) hmem []
  simpa only [sectionTrace, hkind] using hev

namespace Record

/-- A see-also that is met is listed under its key. -/
lemma mem_keys_seeAlsos_of_met {root e : Element} {s : Spacing}
    (h : .seeAlso s e ∈ sectionsTrace .termFirst [] root.elements) :
    seeAlsoKey e.tag ∈ (ofRoot root).seeAlsos.keys := by
  rw [seeAlsos_ofRoot, OrderedMap.mem_keys_ofList]
  have hentry : seeAlsoEntry s e ∈ listed (sectionsTrace .termFirst [] root.elements) :=
    List.mem_filterMap.mpr ⟨_, h, rfl⟩
  exact List.mem_map.mpr ⟨_, hentry, rfl⟩

end Record

/-! ### The see-alsos of a comment -/

namespace Comment

/-- **What is reached is listed.** Of an accepted comment the see-alsos under the root are listed,
and so is every see-also that is reached from one of these or from a rendered section. -/
theorem seeAlsoKey_mem_keys {t : Text} {r : Record} (h : read (some t) = .ok (some r)) :
    ∃ root, readDocument t = .ok root ∧
      (∀ e ∈ root.childrenNamed "seealso".toList, seeAlsoKey e.tag ∈ r.seeAlsos.keys) ∧
      ∀ sec, IsRendered root sec ∨ sec ∈ root.childrenNamed "seealso".toList →
        ∀ e, Reaches sec e → e.role = .seeAlso → seeAlsoKey e.tag ∈ r.seeAlsos.keys := by
  obtain ⟨-, root, hroot, rfl⟩ := read_eq_ok_some_iff.mp h
  refine ⟨root, hroot, fun e he => ?_, fun sec hsec e hreach hrole => ?_⟩
  · have hmet : .seeAlso .preserve e ∈ seeAlsoTrace .termFirst .preserve e :=
      List.mem_append_right _ (List.mem_singleton_self _)
    exact Record.mem_keys_seeAlsos_of_met (mem_sectionsTrace_of_seeAlso he hmet)
  · rcases hsec with hrendered | hseeAlso
    · obtain ⟨s, hmem⟩ := hrendered.mem_sectionsTrace
      obtain ⟨s', hmet⟩ := hreach.exists_mem_contentTrace hrole s
      exact Record.mem_keys_seeAlsos_of_met (hmem _ hmet)
    · obtain ⟨s', hmet⟩ := hreach.exists_mem_contentTrace hrole .preserve
      exact Record.mem_keys_seeAlsos_of_met
        (mem_sectionsTrace_of_seeAlso hseeAlso (List.mem_append_left _ hmet))

/-- A see-also with a given body. -/
def seeAlsoTo (key : String) (content : List Node) : Node :=
  .element { name := "seealso".toList, attributes := .ofList [("cref".toList, key.toList)] } content

/-- A definition that is one paragraph, with one see-also inside another. -/
def nestedDefinition : Element where
  tag := { name := "item".toList }
  content :=
    [.element { name := "para".toList }
      [.text "as in ".toList, seeAlsoTo "T:A" [seeAlsoTo "M:B" [.text ['b']]]]]

/-- A comment with this definition in a list. -/
def nestedRoot : Element where
  tag := { name := "doc".toList }
  content :=
    [.element { name := "remarks".toList }
      [.element { name := "list".toList } [nestedDefinition.toNode]]]

/-- The comment as it is written. -/
def nestedText : Text :=
  "<doc><remarks><list><item><para>as in <seealso cref=\"T:A\">".toList ++
    "<seealso cref=\"M:B\">b</seealso></seealso></para></item></list></remarks></doc>".toList

lemma writesNode_nestedRoot : WritesNode nestedRoot.toNode nestedText := by
  have hwritten : nestedRoot.toNode.written = nestedText := by decide +kernel
  rw [← hwritten]
  exact writesNode_written _ rfl

theorem seeAlsoKey_mem_keys_nestedRoot :
    read (some nestedText) = .ok (some (Record.ofRoot nestedRoot)) ∧
      ['B'] ∈ (Record.ofRoot nestedRoot).seeAlsos.keys := by
  have hread := read_of_writesNode writesNode_nestedRoot rfl
  obtain ⟨root, hroot, -, hreached⟩ := seeAlsoKey_mem_keys hread
  obtain rfl : nestedRoot = root := Except.ok.inj
    ((readDocument_eq_ok writesNode_nestedRoot rfl).symm.trans hroot)
  have hdefinition : Reaches nestedDefinition
      ⟨{ name := "seealso".toList, attributes := .ofList [("cref".toList, "M:B".toList)] },
        [.text ['b']]⟩ :=
    .inside List.mem_cons_self (.inl rfl) (.inside List.mem_cons_self (.inr rfl)
      (.child List.mem_cons_self))
  have hsection : IsRendered nestedRoot ⟨{ name := "remarks".toList },
      [.element { name := "list".toList } [nestedDefinition.toNode]]⟩ :=
    .text .remarks rfl
  exact ⟨hread, hreached _ (.inl hsection) _
    (.plainItem List.mem_cons_self rfl rfl List.mem_cons_self rfl rfl hdefinition) rfl⟩

/-! ### What is not reached -/

/-- Whether an element stands in the body of another, at any depth. -/
inductive IsBelow : Element → Element → Prop where
  | child {e c : Element} (hc : c ∈ e.elements) : IsBelow e c
  | inside {e c x : Element} (hc : c ∈ e.elements) (hx : IsBelow c x) : IsBelow e x

/-- A list with see-alsos in its head, in an item that shows its own text, and in a second term. -/
def unreachedList : Node :=
  .element { name := "list".toList, attributes := .ofList [("type".toList, "bullet".toList)] }
    [.element { name := "listheader".toList }
        [.element { name := "term".toList } [seeAlsoTo "A" []]],
      .element { name := "item".toList } [seeAlsoTo "B" []],
      .element { name := "item".toList }
        [.element { name := "term".toList } [.text ['t']],
          .element { name := "term".toList } [seeAlsoTo "C" []]]]

/-- A comment with see-alsos in a list, in code, in a reference with a body and in bold type. -/
def unreachedRoot : Element where
  tag := { name := "doc".toList }
  content :=
    [.element { name := "remarks".toList }
      [unreachedList, .element { name := ['c'] } [seeAlsoTo "D" []],
        .element { name := "see".toList } [seeAlsoTo "E" []],
        .element { name := ['b'] } [seeAlsoTo "F" []]]]

/-- The comment as it is written. -/
def unreachedText : Text :=
  "<doc><remarks><list type=\"bullet\"><listheader><term>".toList ++
    "<seealso cref=\"A\"></seealso></term></listheader>".toList ++
    "<item><seealso cref=\"B\"></seealso></item><item><term>t</term>".toList ++
    "<term><seealso cref=\"C\"></seealso></term></item></list>".toList ++
    "<c><seealso cref=\"D\"></seealso></c><see><seealso cref=\"E\"></seealso></see>".toList ++
    "<b><seealso cref=\"F\"></seealso></b></remarks></doc>".toList

lemma writesNode_unreachedRoot : WritesNode unreachedRoot.toNode unreachedText := by
  have hwritten : unreachedRoot.toNode.written = unreachedText := by decide +kernel
  rw [← hwritten]
  exact writesNode_written _ rfl

/-- None of these see-alsos is listed. -/
lemma seeAlsos_unreachedRoot : (Record.ofRoot unreachedRoot).seeAlsos = .empty := by
  rw [Record.seeAlsos_ofRoot]
  decide

/-- So not all see-alsos below a rendered section are listed. -/
theorem not_forall_isBelow_listed :
    ¬ ∀ t r, read (some t) = .ok (some r) → ∃ root, readDocument t = .ok root ∧
      (∀ e ∈ root.childrenNamed "seealso".toList, seeAlsoKey e.tag ∈ r.seeAlsos.keys) ∧
      ∀ sec, IsRendered root sec → ∀ e, IsBelow sec e → e.tag.name = "seealso".toList →
        seeAlsoKey e.tag ∈ r.seeAlsos.keys := by
  intro hall
  have hread := read_of_writesNode writesNode_unreachedRoot rfl
  obtain ⟨root, hroot, -, hbelow⟩ := hall _ _ hread
  obtain rfl : unreachedRoot = root := Except.ok.inj
    ((readDocument_eq_ok writesNode_unreachedRoot rfl).symm.trans hroot)
  have hbold : IsBelow ⟨{ name := ['b'] }, [seeAlsoTo "F" []]⟩
      ⟨{ name := "seealso".toList, attributes := .ofList [("cref".toList, ['F'])] }, []⟩ :=
    .child List.mem_cons_self
  have hlisted := hbelow _ (.text .remarks rfl) _
    (.inside (by simp [Element.elements, Node.element?]) hbold) rfl
  rw [seeAlsos_unreachedRoot] at hlisted
  exact absurd hlisted (by decide)

end Comment

end DocComment
