import DocComment.Proofs.Body.Trace

/-!
How much the order matters in which the parts of an item are gone through.

* **The swap.** Going through the parts as they are written is going through the term first,
  unless the description stands first (`partsTrace_both`).
* **Document order.** Going by the parts as they are written, see-alsos are met in the order of
  their ends in the document (`sublist_contentTrace`).
* **Comparing.** The lists of the two orders are compared by a relation that can be carried out
  piece by piece, such as equality or having the same last value under a key. The order matters
  only through single items: if each of them lists the same either way, so does the content
  (`compare_contentTrace`).
-/

namespace DocComment

namespace Body

open Xml

/-! ### The swap -/

/-- Whether the description of an item stands before its term, or without one. -/
def descriptionFirst : List Node → Bool
  | [] => false
  | .text _ :: ns => descriptionFirst ns
  | .element tag _ :: ns =>
    if tag.name = "term".toList then false
    else if tag.name = "description".toList then true
    else descriptionFirst ns

/-- What is met in the term of an item. -/
def termTrace (o : PartOrder) (content : List Node) : List Event :=
  partsTrace o ["term".toList] content

/-- What is met in the description of an item. -/
def descriptionTrace (o : PartOrder) (content : List Node) : List Event :=
  partsTrace o ["description".toList] content

/-- Going through both parts in one pass: the one that stands first comes first. -/
lemma partsTrace_both (o : PartOrder) (content : List Node) :
    partsTrace o ["term".toList, "description".toList] content =
      if descriptionFirst content then descriptionTrace o content ++ termTrace o content
      else termTrace o content ++ descriptionTrace o content := by
  induction content with
  | nil => rfl
  | cons n ns ih =>
      cases n with
      | text t => exact ih
      | element tag content =>
          by_cases ht : tag.name = "term".toList
          · have hd : tag.name ≠ "description".toList := by rw [ht]; decide
            have hmem : tag.name ∈ ["term".toList, "description".toList] := by
              rw [ht]; exact List.mem_cons_self
            rw [termTrace, descriptionTrace, partsTrace_cons_of_eq ht, partsTrace_cons_of_ne hd,
              descriptionFirst, if_pos ht, partsTrace, if_pos hmem, ht, List.erase_cons_head]
            rfl
          · by_cases hd : tag.name = "description".toList
            · have hmem : tag.name ∈ ["term".toList, "description".toList] := by
                rw [hd]; exact List.mem_cons_of_mem _ List.mem_cons_self
              rw [termTrace, descriptionTrace, partsTrace_cons_of_ne ht, partsTrace_cons_of_eq hd,
                descriptionFirst, if_neg ht, if_pos hd, partsTrace, if_pos hmem, hd,
                List.erase_cons_tail (by decide), List.erase_cons_head]
              rfl
            · have hmem : tag.name ∉ ["term".toList, "description".toList] := by
                simp only [List.mem_cons, List.not_mem_nil, or_false, not_or]
                exact ⟨ht, hd⟩
              rw [termTrace, descriptionTrace, partsTrace_cons_of_ne ht, partsTrace_cons_of_ne hd,
                descriptionFirst, if_neg ht, if_neg hd, partsTrace, if_neg hmem]
              exact ih

lemma passes_termFirst (o : PartOrder) (content : List Node) :
    (PartOrder.termFirst.passes.flatMap fun names => partsTrace o names content) =
      termTrace o content ++ descriptionTrace o content := by
  simp [PartOrder.passes, termTrace, descriptionTrace]

lemma passes_asWritten (o : PartOrder) (content : List Node) :
    (PartOrder.asWritten.passes.flatMap fun names => partsTrace o names content) =
      partsTrace o ["term".toList, "description".toList] content := by
  simp [PartOrder.passes]

/-! ### Document order -/

mutual

/-- The elements of a piece of content in the order of their ends. -/
def nodeEnds : Node → List Element
  | .text _ => []
  | .element tag content => contentEnds content ++ [⟨tag, content⟩]

/-- The elements of a content in the order of their ends. -/
def contentEnds : List Node → List Element
  | [] => []
  | n :: ns => nodeEnds n ++ contentEnds ns

end

/-- The see-also that is met. -/
def Event.element? : Event → Option Element
  | .seeAlso _ e => some e
  | .item _ => none

/-- The see-alsos that are met. -/
def seeAlsosMet (es : List Event) : List Element :=
  es.filterMap Event.element?

@[simp] lemma seeAlsosMet_append (xs ys : List Event) :
    seeAlsosMet (xs ++ ys) = seeAlsosMet xs ++ seeAlsosMet ys :=
  List.filterMap_append

lemma partsTrace_of_lacks {o : PartOrder} {name : Text} {content : List Node}
    (h : lacks name content = true) : partsTrace o [name] content = [] := by
  induction content with
  | nil => rfl
  | cons n ns ih =>
      cases n with
      | text t => exact ih h
      | element tag content =>
          simp only [lacks, List.all_cons, Bool.and_eq_true] at h
          rw [partsTrace_cons_of_ne (by simpa using h.1)]
          exact ih h.2

/-- An item without parts meets nothing in them. -/
lemma partsTrace_of_lacksParts {o : PartOrder} {content : List Node}
    (h : lacksParts content = true) :
    partsTrace o ["term".toList, "description".toList] content = [] := by
  rw [lacksParts, Bool.and_eq_true] at h
  have ht : termTrace o content = [] := partsTrace_of_lacks h.1
  have hd : descriptionTrace o content = [] := partsTrace_of_lacks h.2
  rw [partsTrace_both, ht, hd]
  simp

mutual

lemma sublist_nodeTrace (s : Spacing) : ∀ n : Node,
    (seeAlsosMet (nodeTrace .asWritten s n)).Sublist (nodeEnds n)
  | .text _ => .slnil
  | .element tag content => by
      have body := fun s => sublist_contentTrace s content
      have items := sublist_itemsTrace (ListKind.ofTag tag) content
      simp only [nodeTrace, nodeEnds]
      cases Role.ofName tag.localName with
      | block => exact (body .preserve).trans (List.sublist_append_left _ _)
      | list => exact items.trans (List.sublist_append_left _ _)
      | seeAlso =>
          rw [seeAlsosMet_append]
          exact (body s).append (.refl _)
      | code => exact List.nil_sublist _
      | parameter => exact List.nil_sublist _
      | see => exact List.nil_sublist _
      | plain => exact List.nil_sublist _

/-- **Document order**: if the parts of items are gone through as they are written, the see-alsos
are met in the order of their ends. -/
theorem sublist_contentTrace (s : Spacing) : ∀ ns : List Node,
    (seeAlsosMet (contentTrace .asWritten s ns)).Sublist (contentEnds ns)
  | [] => .slnil
  | n :: ns => by
      rw [contentTrace, seeAlsosMet_append]
      exact (sublist_nodeTrace s n).append (sublist_contentTrace s ns)

lemma sublist_itemsTrace (kind : ListKind) : ∀ ns : List Node,
    (seeAlsosMet (itemsTrace .asWritten kind ns)).Sublist (contentEnds ns)
  | [] => .slnil
  | .text _ :: ns => sublist_itemsTrace kind ns
  | .element tag content :: ns => by
      have rest := sublist_itemsTrace kind ns
      by_cases hname : tag.name = "item".toList
      · have hitem : (seeAlsosMet (itemTrace .asWritten kind content)).Sublist
            (contentEnds content) := by
          rw [itemTrace, passes_asWritten]
          split
          · rename_i hkind
            rw [partsTrace_of_lacksParts hkind.2, List.nil_append]
            exact sublist_contentTrace .preserve content
          · rw [List.append_nil]
            exact sublist_partsTrace _ content
        rw [itemsTrace_item hname, List.cons_append, contentEnds, nodeEnds]
        have hmet : seeAlsosMet (.item content :: (itemTrace .asWritten kind content ++
            itemsTrace .asWritten kind ns)) =
              seeAlsosMet (itemTrace .asWritten kind content) ++
                seeAlsosMet (itemsTrace .asWritten kind ns) :=
          seeAlsosMet_append _ _
        rw [hmet]
        exact (hitem.trans (List.sublist_append_left _ _)).append rest
      · rw [itemsTrace, if_neg hname]
        exact rest.trans (List.sublist_append_right _ _)

lemma sublist_partsTrace (names : List Text) : ∀ ns : List Node,
    (seeAlsosMet (partsTrace .asWritten names ns)).Sublist (contentEnds ns)
  | [] => .slnil
  | .text _ :: ns => sublist_partsTrace names ns
  | .element tag content :: ns => by
      rw [contentEnds, nodeEnds, partsTrace]
      split
      · rw [seeAlsosMet_append]
        exact ((sublist_contentTrace .preserve content).trans (List.sublist_append_left _ _)).append
          (sublist_partsTrace _ ns)
      · exact (sublist_partsTrace names ns).trans (List.sublist_append_right _ _)

end

/-! ### Comparing the two orders -/

/-- A way to compare lists of references that can be carried out piece by piece. -/
structure IsPiecewise (R : List (Text × Text) → List (Text × Text) → Prop) : Prop where
  refl : ∀ xs, R xs xs
  trans : ∀ {xs ys zs}, R xs ys → R ys zs → R xs zs
  append : ∀ {xs ys xs' ys'}, R xs ys → R xs' ys' → R (xs ++ xs') (ys ++ ys')

lemma isPiecewise_eq : IsPiecewise (· = ·) :=
  ⟨fun _ => rfl, fun h h' => h.trans h', fun h h' => by rw [h, h']⟩

lemma isPiecewise_perm : IsPiecewise List.Perm :=
  ⟨.refl, .trans, .append⟩

lemma isPiecewise_lastValue (key : Text) :
    IsPiecewise fun xs ys => OrderedMap.lastValue? xs key = OrderedMap.lastValue? ys key where
  refl _ := rfl
  trans h h' := h.trans h'
  append h h' := by rw [OrderedMap.lastValue?_append, OrderedMap.lastValue?_append, h, h']

variable {R : List (Text × Text) → List (Text × Text) → Prop}

/-- Whether an item lists the same, as far as `R` tells, if its term is gone through first. -/
def KeepsOrder (R : List (Text × Text) → List (Text × Text) → Prop) (content : List Node) : Prop :=
  R (listed (termTrace .asWritten content ++ descriptionTrace .asWritten content))
    (listed (partsTrace .asWritten ["term".toList, "description".toList] content))

/-- Whether all items that are met keep the order. -/
def KeepOrder (R : List (Text × Text) → List (Text × Text) → Prop) (es : List Event) : Prop :=
  ∀ content, Event.item content ∈ es → KeepsOrder R content

lemma keepOrder_append {xs ys : List Event} :
    KeepOrder R (xs ++ ys) ↔ KeepOrder R xs ∧ KeepOrder R ys := by
  simp only [KeepOrder, List.mem_append]
  constructor
  · intro h
    exact ⟨fun c hc => h c (.inl hc), fun c hc => h c (.inr hc)⟩
  · rintro ⟨hx, hy⟩ c (hc | hc)
    · exact hx c hc
    · exact hy c hc

/-- An item keeps the order if its description does not stand first, and otherwise if the two
parts may change places. -/
lemma keepsOrder_of_swap (hR : IsPiecewise R) {content : List Node}
    (h : descriptionFirst content = true →
      R (listed (termTrace .asWritten content) ++ listed (descriptionTrace .asWritten content))
        (listed (descriptionTrace .asWritten content) ++ listed (termTrace .asWritten content))) :
    KeepsOrder R content := by
  rw [KeepsOrder, partsTrace_both]
  cases hfirst : descriptionFirst content with
  | false => exact hR.refl _
  | true =>
      simp only [listed_append, if_true]
      exact h hfirst

lemma KeepOrder.parts {content : List Node}
    (h : KeepOrder R (partsTrace .asWritten ["term".toList, "description".toList] content)) :
    KeepOrder R (termTrace .asWritten content) ∧
      KeepOrder R (descriptionTrace .asWritten content) := by
  rw [partsTrace_both] at h
  cases hfirst : descriptionFirst content with
  | false =>
      simp only [hfirst, Bool.false_eq_true, if_false] at h
      exact keepOrder_append.mp h
  | true =>
      simp only [hfirst, if_true] at h
      exact (keepOrder_append.mp h).symm

section Compare

variable (hR : IsPiecewise R)

include hR

/-- An item that keeps the order lists the same either way, if its content does. -/
lemma compare_itemTrace {kind : ListKind} {content : List Node}
    (body : KeepOrder R (contentTrace .asWritten .preserve content) →
      R (listed (contentTrace .termFirst .preserve content))
        (listed (contentTrace .asWritten .preserve content)))
    (parts : ∀ names, KeepOrder R (partsTrace .asWritten names content) →
      R (listed (partsTrace .termFirst names content))
        (listed (partsTrace .asWritten names content)))
    (hitem : KeepsOrder R content) (h : KeepOrder R (itemTrace .asWritten kind content)) :
    R (listed (itemTrace .termFirst kind content))
      (listed (itemTrace .asWritten kind content)) := by
  rw [itemTrace, passes_asWritten] at h
  obtain ⟨hboth, hbody⟩ := keepOrder_append.mp h
  obtain ⟨hterm, hdescription⟩ := hboth.parts
  rw [KeepsOrder, listed_append] at hitem
  simp only [itemTrace, passes_termFirst, passes_asWritten, listed_append]
  refine hR.append (hR.trans ?_ hitem) ?_
  · exact hR.append (parts _ hterm) (parts _ hdescription)
  · split
    · rename_i hkind
      rw [if_pos hkind] at hbody
      exact body hbody
    · exact hR.refl _

mutual

lemma compare_nodeTrace (s : Spacing) : ∀ n : Node, KeepOrder R (nodeTrace .asWritten s n) →
    R (listed (nodeTrace .termFirst s n)) (listed (nodeTrace .asWritten s n))
  | .text _, _ => hR.refl _
  | .element tag content, h => by
      have body := fun s => compare_contentTrace s content
      have items := compare_itemsTrace (ListKind.ofTag tag) content
      simp only [nodeTrace] at h ⊢
      cases hrole : Role.ofName tag.localName with
      | block =>
          rw [hrole] at h
          exact body .preserve h
      | list =>
          rw [hrole] at h
          exact items h
      | seeAlso =>
          rw [hrole] at h
          simp only [listed_append]
          exact hR.append (body s (keepOrder_append.mp h).1) (hR.refl _)
      | code => exact hR.refl _
      | parameter => exact hR.refl _
      | see => exact hR.refl _
      | plain => exact hR.refl _

/-- **The two orders** list the same of a content, as far as `R` tells, if the items that are met
keep the order. -/
theorem compare_contentTrace (s : Spacing) : ∀ ns : List Node,
    KeepOrder R (contentTrace .asWritten s ns) →
    R (listed (contentTrace .termFirst s ns)) (listed (contentTrace .asWritten s ns))
  | [], _ => hR.refl _
  | n :: ns, h => by
      rw [contentTrace] at h
      obtain ⟨hn, hns⟩ := keepOrder_append.mp h
      simp only [contentTrace, listed_append]
      exact hR.append (compare_nodeTrace s n hn) (compare_contentTrace s ns hns)

lemma compare_itemsTrace (kind : ListKind) : ∀ ns : List Node,
    KeepOrder R (itemsTrace .asWritten kind ns) →
    R (listed (itemsTrace .termFirst kind ns)) (listed (itemsTrace .asWritten kind ns))
  | [], _ => hR.refl _
  | .text _ :: ns, h => compare_itemsTrace kind ns h
  | .element tag content :: ns, h => by
      by_cases hname : tag.name = "item".toList
      · rw [itemsTrace_item hname, List.cons_append] at h
        have hitem : KeepsOrder R content := h content List.mem_cons_self
        obtain ⟨hown, hns⟩ := keepOrder_append.mp fun c hc => h c (List.mem_cons_of_mem _ hc)
        simp only [itemsTrace_item hname, List.cons_append, listed_item, listed_append]
        exact hR.append
          (compare_itemTrace hR (compare_contentTrace .preserve content)
            (fun names => compare_partsTrace names content) hitem hown)
          (compare_itemsTrace kind ns hns)
      · simp only [itemsTrace, if_neg hname] at h ⊢
        exact compare_itemsTrace kind ns h

lemma compare_partsTrace (names : List Text) : ∀ ns : List Node,
    KeepOrder R (partsTrace .asWritten names ns) →
    R (listed (partsTrace .termFirst names ns)) (listed (partsTrace .asWritten names ns))
  | [], _ => hR.refl _
  | .text _ :: ns, h => compare_partsTrace names ns h
  | .element tag content :: ns, h => by
      by_cases hname : tag.name ∈ names
      · rw [partsTrace, if_pos hname] at h
        obtain ⟨hcontent, hns⟩ := keepOrder_append.mp h
        simp only [partsTrace, if_pos hname, listed_append]
        exact hR.append (compare_contentTrace .preserve content hcontent)
          (compare_partsTrace (names.erase tag.name) ns hns)
      · simp only [partsTrace, if_neg hname] at h ⊢
        exact compare_partsTrace names ns h

end

end Compare

end Body

end DocComment
