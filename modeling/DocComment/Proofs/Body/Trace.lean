import DocComment.Body.Page
import DocComment.Proofs.OrderedMap

/-!
What writing a body does to the list of see-also references.

* **Roles.** `Role.tagNames` gives the names of the tags with a role, and a tag has the role just if
  it has one of these names (`Role.ofName_eq_iff`).
* **The trace.** Writing a content meets list items and see-alsos in a certain order. `contentTrace`
  puts down what is met: an item when it begins, a see-also when it ends. Only the parts that are
  written are gone through, so a see-also within inline code, or in the second term of an item,
  is not met.
* **Two orders.** The parts of an item may be gone through term first or as they are written.
  Writing goes by `PartOrder.termFirst`.
* **Writing lists the trace.** `writeContent_eq`: the see-alsos of the trace are inserted one
  after another into the references found before, and the text that is written does not depend
  on those.
-/

namespace DocComment

/-! ### The names of tags -/

namespace Role

/-- The local names of the tags with a role. All other tags are plain. -/
def tagNames : Role → List Text
  | block => ["code".toList, "para".toList]
  | list => ["list".toList]
  | code => ["c".toList]
  | parameter => ["paramref".toList, "typeparamref".toList]
  | see => ["see".toList]
  | seeAlso => ["seealso".toList]
  | plain => []

variable {role : Role} {name : Text}

lemma ofName_of_mem_tagNames (h : name ∈ role.tagNames) : ofName name = role := by
  cases role with
  | plain => cases h
  | block | parameter =>
      obtain rfl | hname := List.mem_cons.mp h
      · rfl
      · obtain rfl := List.mem_singleton.mp hname
        rfl
  | list | code | see | seeAlso =>
      obtain rfl := List.mem_singleton.mp h
      rfl

/-- A tag with a role is known by its name. -/
lemma ofName_eq_iff (hrole : role ≠ plain) : ofName name = role ↔ name ∈ role.tagNames := by
  refine ⟨?_, ofName_of_mem_tagNames⟩
  rintro rfl
  rw [ofName] at hrole ⊢
  split_ifs at hrole ⊢ with hblock hlist hcode hparameter hsee hseeAlso
  · simpa [tagNames] using hblock
  · exact List.mem_singleton.mpr hlist
  · exact List.mem_singleton.mpr hcode
  · simpa [tagNames] using hparameter
  · exact List.mem_singleton.mpr hsee
  · exact List.mem_singleton.mpr hseeAlso
  · exact absurd rfl hrole

end Role

namespace Body

open Xml

/-! ### The trace -/

/-- The text of a content on a page of its own. -/
def contentText (s : Spacing) (content : List Node) : Text :=
  (writeContent s {} content).text

/-- The entry of a see-also: its key and what is shown for it. -/
def seeAlsoEntry (s : Spacing) (e : Element) : Text × Text :=
  (seeAlsoKey e.tag, seeAlsoDisplay s e.tag (contentText s e.content))

/-- What is met while a content is written. -/
inductive Event where
  /-- The end of a see-also, with the spacing of the text around it. -/
  | seeAlso (s : Spacing) (e : Element)
  /-- The beginning of a list item with the given content. -/
  | item (content : List Node)

/-- The entry that is made when a see-also is met. -/
def Event.found? : Event → Option (Text × Text)
  | .seeAlso s e => some (seeAlsoEntry s e)
  | .item _ => none

/-- The entries of the see-alsos that are met. -/
def listed (es : List Event) : List (Text × Text) :=
  es.filterMap Event.found?

@[simp] lemma listed_nil : listed [] = [] := rfl

@[simp] lemma listed_append (xs ys : List Event) : listed (xs ++ ys) = listed xs ++ listed ys :=
  List.filterMap_append

@[simp] lemma listed_item (content : List Node) (es : List Event) :
    listed (.item content :: es) = listed es := rfl

@[simp] lemma listed_seeAlso (s : Spacing) (e : Element) (es : List Event) :
    listed (.seeAlso s e :: es) = seeAlsoEntry s e :: listed es := rfl

/-- The orders in which the term and the description of an item may be gone through. -/
inductive PartOrder where
  /-- The term and then the description, wherever they stand. -/
  | termFirst
  /-- The one that stands first, then the other. -/
  | asWritten
  deriving DecidableEq

/-- The passes over the content of an item: for each the names of the parts it looks for. -/
def PartOrder.passes : PartOrder → List (List Text)
  | .termFirst => [["term".toList], ["description".toList]]
  | .asWritten => [["term".toList, "description".toList]]

/-- Whether a content has no element of a given name. -/
def lacks (name : Text) (content : List Node) : Bool :=
  content.all fun n =>
    match n with
    | .text _ => true
    | .element tag _ => tag.name ≠ name

/-- Whether an item has neither a term nor a description. -/
def lacksParts (content : List Node) : Bool :=
  lacks "term".toList content && lacks "description".toList content

mutual

/-- What is met while a piece of content is written. -/
def nodeTrace (o : PartOrder) (s : Spacing) : Node → List Event
  | .text _ => []
  | .element tag content =>
    match Role.ofName tag.localName with
    | .block => contentTrace o .preserve content
    | .list => itemsTrace o (ListKind.ofTag tag) content
    | .seeAlso => contentTrace o s content ++ [.seeAlso s ⟨tag, content⟩]
    | .code => []
    | .parameter => []
    | .see => []
    | .plain => []

/-- What is met while a content is written. -/
def contentTrace (o : PartOrder) (s : Spacing) : List Node → List Event
  | [] => []
  | n :: ns => nodeTrace o s n ++ contentTrace o s ns

/-- What is met while the items of a list are written. -/
def itemsTrace (o : PartOrder) (kind : ListKind) : List Node → List Event
  | [] => []
  | .text _ :: ns => itemsTrace o kind ns
  | .element tag content :: ns =>
    if tag.name = "item".toList then
      .item content :: (o.passes.flatMap fun names => partsTrace o names content) ++
        (if kind = .definition ∧ lacksParts content then contentTrace o .preserve content
          else []) ++
        itemsTrace o kind ns
    else itemsTrace o kind ns

/-- What is met while the parts with the given names are written, each the first of its name. -/
def partsTrace (o : PartOrder) (names : List Text) : List Node → List Event
  | [] => []
  | .text _ :: ns => partsTrace o names ns
  | .element tag content :: ns =>
    if tag.name ∈ names then
      contentTrace o .preserve content ++ partsTrace o (names.erase tag.name) ns
    else partsTrace o names ns

end

/-! ### Parts -/

@[simp] lemma partsTrace_nil (o : PartOrder) (content : List Node) :
    partsTrace o [] content = [] := by
  induction content with
  | nil => rfl
  | cons n ns ih =>
      cases n with
      | text t => exact ih
      | element tag content => simpa [partsTrace] using ih

/-- Looking for one part ends with the first element of its name. -/
lemma partsTrace_cons_of_eq {name : Text} {tag : Tag} (h : tag.name = name) (o : PartOrder)
    (content ns : List Node) :
    partsTrace o [name] (.element tag content :: ns) = contentTrace o .preserve content := by
  subst h
  rw [partsTrace, if_pos (List.mem_singleton.mpr rfl), List.erase_cons_head, partsTrace_nil,
    List.append_nil]

lemma partsTrace_cons_of_ne {name : Text} {tag : Tag} (h : tag.name ≠ name) (o : PartOrder)
    (content ns : List Node) :
    partsTrace o [name] (.element tag content :: ns) = partsTrace o [name] ns := by
  rw [partsTrace, if_neg (by simpa using h)]

/-! ### Writing lists the trace -/

/-- Whether a step of writing lists exactly the given references, whatever has been listed
before, and writes a text that does not depend on them. -/
def Lists (write : Page → Page) (found : List (Text × Text)) : Prop :=
  ∀ t, ∃ t', ∀ m, write ⟨t, m⟩ = ⟨t', m.insertAll found⟩

namespace Lists

variable {f g : Page → Page} {xs ys : List (Text × Text)}

lemma comp (hf : Lists f xs) (hg : Lists g ys) : Lists (fun p => g (f p)) (xs ++ ys) := by
  intro t
  obtain ⟨t₁, h₁⟩ := hf t
  obtain ⟨t₂, h₂⟩ := hg t₁
  refine ⟨t₂, fun m => ?_⟩
  show g (f ⟨t, m⟩) = _
  rw [h₁, h₂, OrderedMap.insertAll_append]

/-- A step that changes the text alone lists nothing. -/
lemma of_text (g : Text → Text) : Lists (fun p => { p with text := g p.text }) [] :=
  fun t => ⟨g t, fun _ => rfl⟩

lemma inline (s : Spacing) (fragment : Text) : Lists (fun p => p.inline s fragment) [] :=
  of_text fun t => s.append t fragment

/-- The references after a step are those of the page and then those found, and what it writes
does not depend on them. -/
lemma eq (h : Lists f xs) (p : Page) :
    f p = ⟨(f { text := p.text }).text, p.seeAlsos.insertAll xs⟩ := by
  obtain ⟨t, ht⟩ := h p.text
  rw [ht .empty]
  exact ht p.seeAlsos

end Lists

/-- The text of a part of an item, if there is one, and the references after it. -/
def ListsPart (name : String) (content : List Node) : Prop :=
  ∃ part : Option Text, part.isNone = lacks name.toList content ∧
    ∀ m, writePart name m content =
      (part, m.insertAll (listed (partsTrace .termFirst [name.toList] content)))

/-- Writes an item on a line of its own. -/
def writeItem (kind : ListKind) (number : Int) (p : Page) (content : List Node) : Page :=
  let (term, afterTerm) := writePart "term" p.seeAlsos content
  let (description, afterParts) := writePart "description" afterTerm content
  let parts : ItemParts := ⟨term, description⟩
  match kind with
  | .definition =>
    if parts.isAbsent then
      let body := writeContent .preserve { seeAlsos := afterParts } content
      p.line (Text.trim body.text) body.seeAlsos
    else p.line parts.definitionLine afterParts
  | marked => p.line (marked.marker number ++ parts.markedLine (textOf content)) afterParts

lemma writeItems_item {tag : Tag} (h : tag.name = "item".toList) (kind : ListKind) (number : Int)
    (p : Page) (content ns : List Node) :
    writeItems kind number p (.element tag content :: ns) =
      writeItems kind (number + 1) (writeItem kind number p content) ns := by
  rw [writeItems, if_pos h]
  rfl

/-- What is met while an item is written, after its beginning. -/
def itemTrace (o : PartOrder) (kind : ListKind) (content : List Node) : List Event :=
  (o.passes.flatMap fun names => partsTrace o names content) ++
    if kind = .definition ∧ lacksParts content then contentTrace o .preserve content else []

lemma itemsTrace_item {tag : Tag} (h : tag.name = "item".toList) (o : PartOrder) (kind : ListKind)
    (content ns : List Node) :
    itemsTrace o kind (.element tag content :: ns) =
      .item content :: itemTrace o kind content ++ itemsTrace o kind ns := by
  rw [itemsTrace, if_pos h]
  rfl

section Element

variable {content : List Node}
  (body : ∀ s, Lists (fun p => writeContent s p content)
    (listed (contentTrace .termFirst s content)))

include body

/-- An element lists what its body lists, and a see-also is listed after its body. -/
lemma lists_writeNode_element
    (items : ∀ kind number, Lists (fun p => writeItems kind number p content)
      (listed (itemsTrace .termFirst kind content)))
    (s : Spacing) (tag : Tag) :
    Lists (fun p => writeNode s p (.element tag content))
      (listed (nodeTrace .termFirst s (.element tag content))) := by
  simp only [writeNode, nodeTrace]
  cases Role.ofName tag.localName with
  | block =>
      intro t
      obtain ⟨t₁, h₁⟩ := body .preserve []
      refine ⟨Page.withLineFeed (Page.endLine t ++ Text.trim t₁), fun m => ?_⟩
      simp only [h₁, Page.block]
  | list =>
      exact (Lists.of_text (· ++ ['\n'])).comp (items (ListKind.ofTag tag) (firstNumber tag))
  | seeAlso =>
      intro t
      obtain ⟨t₁, h₁⟩ := body s []
      have ht : contentText s content = t₁ := congrArg Page.text (h₁ .empty)
      refine ⟨s.append t (seeAlsoDisplay s tag t₁), fun m => ?_⟩
      simp only [h₁, seeAlsoEntry, ht, listed_append, listed_seeAlso, OrderedMap.insertAll_append]
      rfl
  | code => exact Lists.inline _ _
  | parameter => exact Lists.inline _ _
  | see => exact Lists.inline _ _
  | plain => exact Lists.inline _ _

/-- An item lists what its term and its description list. A definition with neither of them
lists what its content lists. -/
lemma lists_writeItem (term : ListsPart "term" content)
    (description : ListsPart "description" content) (kind : ListKind) (number : Int) :
    Lists (fun p => writeItem kind number p content)
      (listed (itemTrace .termFirst kind content)) := by
  obtain ⟨a, ha, hterm⟩ := term
  obtain ⟨b, hb, hdescription⟩ := description
  let parts : ItemParts := ⟨a, b⟩
  have habsent : (⟨a, b⟩ : ItemParts).isAbsent = lacksParts content := by
    rw [lacksParts, ← ha, ← hb]
    rfl
  have hparts : ∀ m : SeeAlsos,
      (m.insertAll (listed (partsTrace .termFirst ["term".toList] content))).insertAll
        (listed (partsTrace .termFirst ["description".toList] content)) =
      m.insertAll (listed (PartOrder.termFirst.passes.flatMap fun names =>
        partsTrace .termFirst names content)) := by
    intro m
    simp [PartOrder.passes, OrderedMap.insertAll_append]
  intro t
  obtain ⟨t₁, h₁⟩ := body .preserve []
  simp only [writeItem, hterm, hdescription, hparts, h₁, itemTrace, habsent]
  cases kind with
  | bullet =>
      refine ⟨t ++ (ListKind.bullet.marker number ++ parts.markedLine (textOf content)) ++ ['\n'],
        fun m => ?_⟩
      simp [Page.line, parts]
  | numbered =>
      refine ⟨t ++ (ListKind.numbered.marker number ++ parts.markedLine (textOf content)) ++ ['\n'],
        fun m => ?_⟩
      simp [Page.line, parts]
  | definition =>
      cases lacksParts content with
      | true =>
          refine ⟨t ++ Text.trim t₁ ++ ['\n'], fun m => ?_⟩
          simp [Page.line, OrderedMap.insertAll_append]
      | false =>
          refine ⟨t ++ parts.definitionLine ++ ['\n'], fun m => ?_⟩
          simp [Page.line, parts]

end Element

mutual

theorem lists_writeNode (s : Spacing) : ∀ n : Node,
    Lists (fun p => writeNode s p n) (listed (nodeTrace .termFirst s n))
  | .text t => by
      by_cases h : Text.isBlank t
      · simpa [writeNode, nodeTrace, h] using Lists.of_text id
      · simpa [writeNode, nodeTrace, h] using Lists.inline s t
  | .element tag content =>
      lists_writeNode_element (fun s => lists_writeContent s content)
        (fun kind number => lists_writeItems kind number content) s tag

/-- **Writing a content lists its trace**, term first. -/
theorem lists_writeContent (s : Spacing) : ∀ ns : List Node,
    Lists (fun p => writeContent s p ns) (listed (contentTrace .termFirst s ns))
  | [] => by simpa [writeContent, contentTrace] using Lists.of_text id
  | n :: ns => by
      rw [contentTrace, listed_append]
      exact (lists_writeNode s n).comp (lists_writeContent s ns)

theorem lists_writeItems (kind : ListKind) (number : Int) : ∀ ns : List Node,
    Lists (fun p => writeItems kind number p ns) (listed (itemsTrace .termFirst kind ns))
  | [] => by simpa [writeItems, itemsTrace] using Lists.of_text id
  | .text t :: ns => by simpa [writeItems, itemsTrace] using lists_writeItems kind number ns
  | .element tag content :: ns => by
      by_cases h : tag.name = "item".toList
      · rw [itemsTrace_item h, List.cons_append, listed_item, listed_append]
        simp only [writeItems_item h]
        have hitem := lists_writeItem (fun s => lists_writeContent s content)
          (listsPart "term" content) (listsPart "description" content) kind number
        exact hitem.comp (lists_writeItems kind (number + 1) ns)
      · simpa only [writeItems, itemsTrace, if_neg h] using lists_writeItems kind number ns

theorem listsPart (name : String) : ∀ ns : List Node, ListsPart name ns
  | [] => ⟨none, rfl, fun _ => rfl⟩
  | .text t :: ns => by
      obtain ⟨part, hpart, h⟩ := listsPart name ns
      exact ⟨part, hpart, fun m => by rw [writePart, h, partsTrace]⟩
  | .element tag content :: ns => by
      by_cases hname : tag.name = name.toList
      · obtain ⟨t, h⟩ := lists_writeContent .preserve content []
        refine ⟨some (Text.trim t), by simp [lacks, hname], fun m => ?_⟩
        simp only [partsTrace_cons_of_eq hname, writePart, if_pos hname, h]
      · obtain ⟨part, hpart, h⟩ := listsPart name ns
        refine ⟨part, by simpa [lacks, hname] using hpart, fun m => ?_⟩
        rw [partsTrace_cons_of_ne hname, writePart, if_neg hname, h]

end

/-- What is written of a content does not depend on the references of the page. After it they
are those of the page and then the see-alsos that were met, the term of an item before its
description. -/
theorem writeContent_eq (s : Spacing) (p : Page) (content : List Node) :
    writeContent s p content =
      ⟨(writeContent s { text := p.text } content).text,
        p.seeAlsos.insertAll (listed (contentTrace .termFirst s content))⟩ :=
  (lists_writeContent s content).eq p

/-- On a page without text, what is written is the text of the content. -/
lemma text_writeContent (s : Spacing) (m : SeeAlsos) (content : List Node) :
    (writeContent s { seeAlsos := m } content).text = contentText s content := by
  rw [writeContent_eq]
  rfl

/-- What is met while a see-also that stands by itself is listed. -/
def seeAlsoTrace (o : PartOrder) (s : Spacing) (e : Element) : List Event :=
  contentTrace o s e.content ++ [.seeAlso s e]

lemma render_eq (s : Spacing) (m : SeeAlsos) (e : Element) :
    render s m e = (Text.trim (contentText s e.content),
      m.insertAll (listed (contentTrace .termFirst s e.content))) := by
  rw [render, writeContent_eq]
  rfl

/-- What is rendered does not depend on the references found before. -/
lemma text_render (s : Spacing) (m : SeeAlsos) (e : Element) :
    (render s m e).1 = Text.trim (contentText s e.content) := by
  rw [render_eq]

lemma registerSeeAlso_eq (s : Spacing) (m : SeeAlsos) (e : Element) :
    registerSeeAlso s m e = m.insertAll (listed (seeAlsoTrace .termFirst s e)) := by
  rw [registerSeeAlso, writeContent_eq, seeAlsoTrace, listed_append, listed_seeAlso,
    OrderedMap.insertAll_append]
  rfl

end Body

end DocComment
