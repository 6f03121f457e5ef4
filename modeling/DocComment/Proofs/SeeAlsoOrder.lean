import DocComment.Proofs.Comment
import DocComment.Proofs.Section

/-!
The order in which the see-alsos of a comment are listed.

* **Document order** is that of the ends of the see-alsos (`sublist_rootTrace`).
* **What is listed** is what is met going through every list item term first, so it is what
  document order gives up to the order (`seeAlsos_of_read`).
* **Where the order shows.** An item with its description in front of its term lists the term's
  see-alsos first. The value of a key is that of document order unless such an item ends its two
  parts with different texts for the key, and the whole list follows document order unless such
  an item has see-alsos in both parts.
-/

namespace DocComment

open Xml Body

/-! ### The sections of a root -/

/-- What is met while the sections of a root are taken in. -/
def rootTrace (o : PartOrder) (root : Element) : List Event :=
  sectionsTrace o [] root.elements

section Compare

variable {R : List (Text × Text) → List (Text × Text) → Prop} (hR : IsPiecewise R)

include hR

lemma compare_sectionTrace (read : List TextSection) (e : Element)
    (h : KeepOrder R (sectionTrace .asWritten read e)) :
    R (listed (sectionTrace .termFirst read e)) (listed (sectionTrace .asWritten read e)) := by
  rw [sectionTrace] at h
  simp only [sectionTrace]
  cases hkind : Section.of? e with
  | none => exact hR.refl _
  | some sec =>
      rw [hkind] at h
      cases sec with
      | text kind =>
          by_cases hread : kind ∈ read
          · simp only [if_pos hread]
            exact hR.refl _
          · simp only [if_neg hread] at h ⊢
            exact compare_contentTrace hR _ e.content h
      | keyed kind =>
          by_cases hkey : (kind.key? e).isSome
          · simp only [if_pos hkey] at h ⊢
            exact compare_contentTrace hR _ e.content h
          · simp only [if_neg hkey]
            exact hR.refl _
      | seeAlso =>
          simp only [seeAlsoTrace, listed_append]
          exact hR.append (compare_contentTrace hR _ e.content (keepOrder_append.mp h).1)
            (hR.refl _)

/-- The two orders list the same of the sections, as far as `R` tells, if the items that are met
keep the order. -/
lemma compare_sectionsTrace (es : List Element) (read : List TextSection)
    (h : KeepOrder R (sectionsTrace .asWritten read es)) :
    R (listed (sectionsTrace .termFirst read es)) (listed (sectionsTrace .asWritten read es)) := by
  induction es generalizing read with
  | nil => exact hR.refl _
  | cons e es ih =>
      rw [sectionsTrace] at h
      obtain ⟨he, hes⟩ := keepOrder_append.mp h
      simp only [sectionsTrace, listed_append]
      exact hR.append (compare_sectionTrace hR read e he) (ih _ hes)

end Compare

/-- The elements of the child elements are those of the content. -/
lemma contentEnds_elements (content : List Node) :
    contentEnds ((content.filterMap Node.element?).map Element.toNode) = contentEnds content := by
  induction content with
  | nil => rfl
  | cons n ns ih =>
      cases n with
      | text t => exact ih
      | element tag content =>
          simp only [List.filterMap_cons, Node.element?, List.map_cons, contentEnds, ih]
          rfl

lemma sublist_sectionTrace (read : List TextSection) (e : Element) :
    (seeAlsosMet (sectionTrace .asWritten read e)).Sublist (nodeEnds e.toNode) := by
  have hbody : ∀ s, (seeAlsosMet (contentTrace .asWritten s e.content)).Sublist
      (nodeEnds e.toNode) := fun s =>
    (sublist_contentTrace s e.content).trans (List.sublist_append_left _ _)
  rw [sectionTrace]
  cases Section.of? e with
  | none => exact List.nil_sublist _
  | some sec =>
      cases sec with
      | text kind =>
          by_cases hread : kind ∈ read
          · simp only [if_pos hread]
            exact List.nil_sublist _
          · simp only [if_neg hread]
            exact hbody _
      | keyed kind =>
          by_cases hkey : (kind.key? e).isSome
          · simp only [if_pos hkey]
            exact hbody _
          · simp only [if_neg hkey]
            exact List.nil_sublist _
      | seeAlso =>
          simp only [seeAlsoTrace, seeAlsosMet_append]
          exact (sublist_contentTrace _ e.content).append (.refl _)

lemma sublist_sectionsTrace (es : List Element) (read : List TextSection) :
    (seeAlsosMet (sectionsTrace .asWritten read es)).Sublist
      (contentEnds (es.map Element.toNode)) := by
  induction es generalizing read with
  | nil => exact .slnil
  | cons e es ih =>
      rw [sectionsTrace, seeAlsosMet_append, List.map_cons, contentEnds]
      exact (sublist_sectionTrace read e).append (ih _)

/-- **Document order**: as they are written, see-alsos are met in the order of their ends. -/
lemma sublist_rootTrace (root : Element) :
    (seeAlsosMet (rootTrace .asWritten root)).Sublist (contentEnds root.content) := by
  rw [← contentEnds_elements root.content]
  exact sublist_sectionsTrace root.elements []

/-! ### Where the order shows -/

/-- Whether the two parts of an item with its description in front end with the same text for a
key, if both have the key. -/
def AgreesOn (key : Text) (content : List Node) : Prop :=
  descriptionFirst content = true →
    ∀ x y, OrderedMap.lastValue? (listed (descriptionTrace .asWritten content)) key = some x →
      OrderedMap.lastValue? (listed (termTrace .asWritten content)) key = some y → x = y

/-- Whether one of the two parts of an item with its description in front lists nothing. -/
def ListsInOnePart (content : List Node) : Prop :=
  descriptionFirst content = true →
    listed (termTrace .asWritten content) = [] ∨ listed (descriptionTrace .asWritten content) = []

lemma AgreesOn.keepsOrder {key : Text} {content : List Node} (h : AgreesOn key content) :
    KeepsOrder (fun xs ys => OrderedMap.lastValue? xs key = OrderedMap.lastValue? ys key)
      content := by
  refine keepsOrder_of_swap (isPiecewise_lastValue key) fun hfirst => ?_
  rw [OrderedMap.lastValue?_append, OrderedMap.lastValue?_append]
  cases hd : OrderedMap.lastValue? (listed (descriptionTrace .asWritten content)) key with
  | none => simp
  | some x =>
      cases ht : OrderedMap.lastValue? (listed (termTrace .asWritten content)) key with
      | none => simp
      | some y => simp [h hfirst x y hd ht]

lemma ListsInOnePart.keepsOrder {content : List Node} (h : ListsInOnePart content) :
    KeepsOrder (· = ·) content := by
  refine keepsOrder_of_swap isPiecewise_eq fun hfirst => ?_
  rcases h hfirst with ht | hd
  · rw [ht, List.nil_append, List.append_nil]
  · rw [hd, List.nil_append, List.append_nil]

namespace Comment

/-- **The list of see-alsos** of a comment has what is met going through every list item term
first. Document order, the order of ends, meets the same, so that only the order can differ. The
value of a key is that of its last see-also in document order if all items that are met agree on
the key, and the whole list follows document order if they list in one part only. -/
theorem seeAlsos_of_read {t : Text} {r : Record} (h : read (some t) = .ok (some r)) :
    ∃ root, readDocument t = .ok root ∧
      r.seeAlsos = .ofList (listed (rootTrace .termFirst root)) ∧
      (listed (rootTrace .termFirst root)).Perm (listed (rootTrace .asWritten root)) ∧
      (seeAlsosMet (rootTrace .asWritten root)).Sublist (contentEnds root.content) ∧
      (∀ key, (∀ content, .item content ∈ rootTrace .asWritten root → AgreesOn key content) →
        r.seeAlsos.get? key = OrderedMap.lastValue? (listed (rootTrace .asWritten root)) key) ∧
      ((∀ content, .item content ∈ rootTrace .asWritten root → ListsInOnePart content) →
        r.seeAlsos = .ofList (listed (rootTrace .asWritten root))) := by
  obtain ⟨-, root, hroot, rfl⟩ := read_eq_ok_some_iff.mp h
  have hlist : (Record.ofRoot root).seeAlsos = .ofList (listed (rootTrace .termFirst root)) :=
    Record.seeAlsos_ofRoot root
  have hperm : (listed (rootTrace .termFirst root)).Perm (listed (rootTrace .asWritten root)) := by
    refine compare_sectionsTrace isPiecewise_perm _ _ fun content _ => ?_
    exact keepsOrder_of_swap isPiecewise_perm fun _ => List.perm_append_comm
  refine ⟨root, hroot, hlist, hperm, sublist_rootTrace root, ?_, ?_⟩
  · intro key hitems
    rw [hlist, OrderedMap.get?_ofList]
    exact compare_sectionsTrace (isPiecewise_lastValue key) _ _ fun content hmem =>
      (hitems content hmem).keepsOrder
  · intro hitems
    rw [hlist]
    refine congrArg OrderedMap.ofList ?_
    exact compare_sectionsTrace isPiecewise_eq _ _ fun content hmem =>
      (hitems content hmem).keepsOrder

/-- A see-also with a given text. -/
def sampleSeeAlso (text : String) : Node :=
  .element { name := "seealso".toList, attributes := .ofList [("cref".toList, ['A'])] }
    [.text text.toList]

/-- A list whose only item has its description in front of its term, with a see-also to the same
declaration in both. -/
def descriptionFirstRoot : Element where
  tag := { name := "doc".toList }
  content :=
    [.element { name := "remarks".toList }
      [.element { name := "list".toList, attributes := .ofList [("type".toList, "bullet".toList)] }
        [.element { name := "item".toList }
          [.element { name := "description".toList } [sampleSeeAlso "d"],
            .element { name := "term".toList } [sampleSeeAlso "t"]]]]]

/-- The list as it is written. -/
def descriptionFirstText : Text :=
  "<doc><remarks><list type=\"bullet\"><item>".toList ++
    "<description><seealso cref=\"A\">d</seealso></description>".toList ++
    "<term><seealso cref=\"A\">t</seealso></term></item></list></remarks></doc>".toList

lemma writesNode_descriptionFirstRoot :
    WritesNode descriptionFirstRoot.toNode descriptionFirstText := by
  have hwritten : descriptionFirstRoot.toNode.written = descriptionFirstText := by decide +kernel
  rw [← hwritten]
  exact writesNode_written _ rfl

theorem seeAlsos_descriptionFirstRoot :
    read (some descriptionFirstText) = .ok (some (Record.ofRoot descriptionFirstRoot)) ∧
      (Record.ofRoot descriptionFirstRoot).seeAlsos = .ofList [(['A'], ['t']), (['A'], ['d'])] := by
  have hread := read_of_writesNode writesNode_descriptionFirstRoot rfl
  obtain ⟨root, hroot, hlist, -⟩ := seeAlsos_of_read hread
  obtain rfl : descriptionFirstRoot = root := Except.ok.inj
    ((readDocument_eq_ok writesNode_descriptionFirstRoot rfl).symm.trans hroot)
  refine ⟨hread, hlist.trans ?_⟩
  decide

/-- So the list of see-alsos does not always follow document order. -/
theorem not_forall_seeAlsos_asWritten :
    ¬ ∀ t r, read (some t) = .ok (some r) →
      ∃ root, readDocument t = .ok root ∧
        r.seeAlsos = .ofList (listed (rootTrace .asWritten root)) := by
  intro hall
  have hread := read_of_writesNode writesNode_descriptionFirstRoot rfl
  obtain ⟨root, hroot, hlist⟩ := hall _ _ hread
  obtain rfl : descriptionFirstRoot = root := Except.ok.inj
    ((readDocument_eq_ok writesNode_descriptionFirstRoot rfl).symm.trans hroot)
  have hvalue := congrArg (fun m => m.get? ['A']) hlist
  exact absurd hvalue (by decide)

end Comment

end DocComment
