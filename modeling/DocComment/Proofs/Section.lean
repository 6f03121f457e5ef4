import DocComment.Proofs.Body.PartOrder
import DocComment.Section

/-!
What the record of a root says, field by field.

* **A record is its fields**: setting one leaves the others (`Record.text_setText`,
  `Record.entries_setEntry`), and records with the same fields are the same (`Record.ext_fields`).
* **Texts.** The text of a kind is that of the first section of this kind (`Record.text_ofRoot`).
* **Keyed sections.** The map of a kind has the entries of its sections, inserted one after
  another (`Record.entries_ofRoot`).
* **See-alsos** are those met while the sections are taken in (`Record.seeAlsos_ofRoot`), the
  term of a list item before its description.
-/

namespace DocComment

open Xml Body

/-! ### Fields of a record -/

namespace Record

/-- Records with the same fields are the same. -/
lemma ext_fields {r d : Record} (htext : ∀ kind, r.text kind = d.text kind)
    (hentries : ∀ kind, r.entries kind = d.entries kind) (hseeAlsos : r.seeAlsos = d.seeAlsos) :
    r = d := by
  obtain ⟨_, _, _, _, _, _, _, _, _, _⟩ := r
  obtain ⟨_, _, _, _, _, _, _, _, _, _⟩ := d
  congr
  · exact htext .summary
  · exact htext .remarks
  · exact htext .returns
  · exact htext .value
  · exact htext .sample
  · exact hentries .exceptions
  · exact hentries .params
  · exact hentries .permissions
  · exact hentries .typeParams

lemma text_setText (r : Record) (k kind : TextSection) (t : Text) :
    (r.setText k t).text kind = if kind = k then t else r.text kind := by
  cases k <;> cases kind <;> rfl

lemma entries_setEntry (r : Record) (k kind : KeyedSection) (key t : Text) :
    (r.setEntry k key t).entries kind =
      if kind = k then (r.entries kind).insert key t else r.entries kind := by
  cases k <;> cases kind <;> rfl

@[simp] lemma text_setEntry (r : Record) (k : KeyedSection) (kind : TextSection) (key t : Text) :
    (r.setEntry k key t).text kind = r.text kind := by
  cases k <;> rfl

@[simp] lemma text_setSeeAlsos (r : Record) (kind : TextSection) (m : SeeAlsos) :
    (r.setSeeAlsos m).text kind = r.text kind := rfl

@[simp] lemma entries_setText (r : Record) (k : TextSection) (kind : KeyedSection) (t : Text) :
    (r.setText k t).entries kind = r.entries kind := by
  cases k <;> rfl

@[simp] lemma entries_setSeeAlsos (r : Record) (kind : KeyedSection) (m : SeeAlsos) :
    (r.setSeeAlsos m).entries kind = r.entries kind := rfl

@[simp] lemma seeAlsos_setText (r : Record) (k : TextSection) (t : Text) :
    (r.setText k t).seeAlsos = r.seeAlsos := by
  cases k <;> rfl

@[simp] lemma seeAlsos_setEntry (r : Record) (k : KeyedSection) (key t : Text) :
    (r.setEntry k key t).seeAlsos = r.seeAlsos := by
  cases k <;> rfl

@[simp] lemma seeAlsos_setSeeAlsos (r : Record) (m : SeeAlsos) :
    (r.setSeeAlsos m).seeAlsos = m := rfl

end Record

/-! ### Tag names, layouts and ids -/

/-- The name of the tag of a text section. -/
def TextSection.tagName : TextSection → Text
  | summary => "summary".toList
  | remarks => "remarks".toList
  | returns => "returns".toList
  | value => "value".toList
  | sample => "example".toList

/-- The name of the tag of a keyed section. -/
def KeyedSection.tagName : KeyedSection → Text
  | exceptions => "exception".toList
  | params => "param".toList
  | permissions => "permission".toList
  | typeParams => "typeparam".toList

/-- The name of the tag of a section. -/
def Section.tagName : Section → Text
  | .text kind => kind.tagName
  | .keyed kind => kind.tagName
  | .seeAlso => "seealso".toList

/-- How the text of a section is laid out: the summary as a paragraph, all others line by line. -/
def TextSection.layout : TextSection → Spacing
  | summary => .collapse
  | remarks => .preserve
  | returns => .preserve
  | value => .preserve
  | sample => .preserve

/-- The name of the attribute that a keyed section has its id in. -/
def KeyedSection.idName : KeyedSection → Text
  | exceptions => "cref".toList
  | params => "name".toList
  | permissions => "cref".toList
  | typeParams => "name".toList

lemma TextSection.spacing_eq_layout (kind : TextSection) : kind.spacing = kind.layout := by
  cases kind <;> rfl

lemma KeyedSection.keyAttribute_eq_idName (kind : KeyedSection) :
    kind.keyAttribute = kind.idName := by
  cases kind <;> rfl

/-- A section is known by the name of its tag. -/
lemma Section.ofName?_eq_some_iff {name : Text} {sec : Section} :
    Section.ofName? name = some sec ↔ name = sec.tagName := by
  constructor
  · intro h
    unfold ofName? at h
    repeat' split at h
    all_goals cases h
    all_goals assumption
  · rintro rfl
    cases sec with
    | text kind => cases kind <;> rfl
    | keyed kind => cases kind <;> rfl
    | seeAlso => rfl

/-! ### What a section gives -/

/-- The text of the body of an element. -/
def Body.bodyText (s : Spacing) (e : Element) : Text :=
  Text.trim (contentText s e.content)

/-- The section that an element is. -/
def Section.of? (e : Element) : Option Section :=
  Section.ofName? e.tag.name

/-- The text that an element gives as a section of a kind. -/
def TextSection.text? (kind : TextSection) (e : Element) : Option Text :=
  if Section.of? e = some (.text kind) then some (bodyText kind.spacing e) else none

/-- The entry that an element gives as a section of a kind: none if it has no key. -/
def KeyedSection.entryIn? (kind : KeyedSection) (e : Element) : Option (Text × Text) :=
  if Section.of? e = some (.keyed kind) then
    (kind.key? e).map fun key => (MemberId.name key, bodyText .preserve e)
  else none

/-- What is met while an element is taken in, if texts of the given kinds have been read. -/
def sectionTrace (o : PartOrder) (read : List TextSection) (e : Element) : List Event :=
  match Section.of? e with
  | some (.text kind) => if kind ∈ read then [] else contentTrace o kind.spacing e.content
  | some (.keyed kind) => if (kind.key? e).isSome then contentTrace o .preserve e.content else []
  | some .seeAlso => seeAlsoTrace o .preserve e
  | none => []

/-- The kinds of texts that have been read after an element. -/
def readAfter (read : List TextSection) (e : Element) : List TextSection :=
  match Section.of? e with
  | some (.text kind) => if kind ∈ read then read else kind :: read
  | _ => read

/-- What is met while elements are taken in one after another. -/
def sectionsTrace (o : PartOrder) (read : List TextSection) : List Element → List Event
  | [] => []
  | e :: es => sectionTrace o read e ++ sectionsTrace o (readAfter read e) es

/-! ### Taking in sections -/

namespace Extraction

lemma take_of_none {e : Element} (h : Section.of? e = none) (x : Extraction) : x.take e = x := by
  rw [Section.of?] at h
  rw [take, h]

lemma take_of_some {e : Element} {kind : Section} (h : Section.of? e = some kind)
    (x : Extraction) : x.take e = x.takeSection e kind := by
  rw [Section.of?] at h
  rw [take, h]

/-- A text section of a kind that has been read is passed over. -/
lemma takeSection_text_of_mem {x : Extraction} {kind : TextSection} (h : kind ∈ x.textsRead)
    (e : Element) : x.takeSection e (.text kind) = x := by
  rw [takeSection, if_pos h]

lemma takeSection_text {x : Extraction} {kind : TextSection} (h : kind ∉ x.textsRead)
    (e : Element) :
    x.takeSection e (.text kind) =
      ⟨(x.record.setSeeAlsos (x.record.seeAlsos.insertAll
          (listed (contentTrace .termFirst kind.spacing e.content)))).setText kind
          (bodyText kind.spacing e), kind :: x.textsRead⟩ := by
  rw [takeSection, if_neg h, render_eq]
  rfl

lemma takeSection_keyed_of_none {kind : KeyedSection} {e : Element} (h : kind.key? e = none)
    (x : Extraction) : x.takeSection e (.keyed kind) = x := by
  rw [takeSection, h]

lemma takeSection_keyed {kind : KeyedSection} {e : Element} {key : Text}
    (h : kind.key? e = some key) (x : Extraction) :
    x.takeSection e (.keyed kind) =
      ⟨(x.record.setSeeAlsos (x.record.seeAlsos.insertAll
          (listed (contentTrace .termFirst .preserve e.content)))).setEntry kind
          (MemberId.name key) (bodyText .preserve e), x.textsRead⟩ := by
  rw [takeSection, h, render_eq]
  rfl

lemma takeSection_seeAlso (x : Extraction) (e : Element) :
    x.takeSection e .seeAlso =
      ⟨x.record.setSeeAlsos (x.record.seeAlsos.insertAll
          (listed (seeAlsoTrace .termFirst .preserve e))), x.textsRead⟩ := by
  rw [takeSection, registerSeeAlso_eq]

/-! ### One section -/

/-- A text is set by the first section of its kind, and then counts as read. -/
lemma take_text (x : Extraction) (e : Element) (kind : TextSection) :
    (x.take e).record.text kind =
        (if kind ∈ x.textsRead then x.record.text kind
          else (kind.text? e).getD (x.record.text kind)) ∧
      (kind ∈ (x.take e).textsRead ↔ kind ∈ x.textsRead ∨ (kind.text? e).isSome) := by
  cases h : Section.of? e with
  | none => simp [take_of_none h, TextSection.text?, h]
  | some sec =>
      rw [take_of_some h, TextSection.text?, h]
      cases sec with
      | text k =>
          by_cases hread : k ∈ x.textsRead
          · rw [takeSection_text_of_mem hread]
            by_cases hk : k = kind
            · subst hk
              simp [hread]
            · simp [hk]
          · rw [takeSection_text hread, Record.text_setText, Record.text_setSeeAlsos]
            by_cases hk : kind = k
            · subst hk
              simp [hread]
            · have hk' : ¬ k = kind := fun he => hk he.symm
              simp [hk, hk']
      | keyed k =>
          cases hkey : k.key? e with
          | none => simp [takeSection_keyed_of_none hkey]
          | some key => simp [takeSection_keyed hkey]
      | seeAlso => simp [takeSection_seeAlso]

lemma entries_take (x : Extraction) (e : Element) (kind : KeyedSection) :
    (x.take e).record.entries kind =
      (x.record.entries kind).insertAll (kind.entryIn? e).toList := by
  cases h : Section.of? e with
  | none => simp [take_of_none h, KeyedSection.entryIn?, h]
  | some sec =>
      rw [take_of_some h, KeyedSection.entryIn?, h]
      cases sec with
      | text k =>
          by_cases hread : k ∈ x.textsRead
          · simp [takeSection_text_of_mem hread]
          · simp [takeSection_text hread]
      | keyed k =>
          cases hkey : k.key? e with
          | none =>
              rw [takeSection_keyed_of_none hkey]
              by_cases hk : k = kind
              · subst hk
                simp [hkey]
              · simp [hk]
          | some key =>
              rw [takeSection_keyed hkey, Record.entries_setEntry, Record.entries_setSeeAlsos]
              by_cases hk : kind = k
              · subst hk
                simp [hkey]
              · have hk' : ¬ k = kind := fun he => hk he.symm
                simp [hk, hk']
      | seeAlso => simp [takeSection_seeAlso]

/-- What is met while an element is taken in is listed. -/
lemma take_seeAlsos (x : Extraction) (e : Element) :
    (x.take e).record.seeAlsos =
        x.record.seeAlsos.insertAll (listed (sectionTrace .termFirst x.textsRead e)) ∧
      (x.take e).textsRead = readAfter x.textsRead e := by
  cases h : Section.of? e with
  | none => simp [take_of_none h, sectionTrace, readAfter, h]
  | some sec =>
      rw [take_of_some h, sectionTrace, readAfter, h]
      cases sec with
      | text kind =>
          by_cases hread : kind ∈ x.textsRead
          · simp [takeSection_text_of_mem hread, hread]
          · simp [takeSection_text hread, hread]
      | keyed kind =>
          cases hkey : kind.key? e with
          | none => simp [takeSection_keyed_of_none hkey, hkey]
          | some key => simp [takeSection_keyed hkey, hkey]
      | seeAlso => simp [takeSection_seeAlso]

/-! ### All sections -/

lemma text_foldl_take (es : List Element) (x : Extraction) (kind : TextSection) :
    (es.foldl take x).record.text kind =
      if kind ∈ x.textsRead then x.record.text kind
      else (es.findSome? kind.text?).getD (x.record.text kind) := by
  induction es generalizing x with
  | nil => simp
  | cons e es ih =>
      obtain ⟨htext, hmem⟩ := take_text x e kind
      rw [List.foldl_cons, ih, htext, List.findSome?_cons]
      by_cases hread : kind ∈ x.textsRead
      · rw [if_pos (hmem.mpr (.inl hread)), if_pos hread, if_pos hread]
      · rw [if_neg hread, if_neg hread]
        cases ht : kind.text? e with
        | none =>
            have : kind ∉ (x.take e).textsRead := by simp [hmem, hread, ht]
            rw [if_neg this]
            rfl
        | some t =>
            have : kind ∈ (x.take e).textsRead := by simp [hmem, ht]
            rw [if_pos this, Option.getD_some]

lemma entries_foldl_take (es : List Element) (x : Extraction) (kind : KeyedSection) :
    (es.foldl take x).record.entries kind =
      (x.record.entries kind).insertAll (es.filterMap kind.entryIn?) := by
  induction es generalizing x with
  | nil => rfl
  | cons e es ih =>
      rw [List.foldl_cons, ih, entries_take, ← OrderedMap.insertAll_append]
      cases h : kind.entryIn? e with
      | none => simp [h]
      | some entry => simp [h]

lemma seeAlsos_foldl_take (es : List Element) (x : Extraction) :
    (es.foldl take x).record.seeAlsos =
      x.record.seeAlsos.insertAll (listed (sectionsTrace .termFirst x.textsRead es)) := by
  induction es generalizing x with
  | nil => rfl
  | cons e es ih =>
      obtain ⟨hseeAlsos, hread⟩ := take_seeAlsos x e
      rw [List.foldl_cons, ih, hseeAlsos, hread, sectionsTrace, listed_append,
        OrderedMap.insertAll_append]

end Extraction

/-! ### The record of a root -/

namespace Record

/-- **Texts**: each is that of the first section of its kind, and empty without one. -/
theorem text_ofRoot (root : Element) (kind : TextSection) :
    (ofRoot root).text kind = (root.elements.findSome? kind.text?).getD [] := by
  have h : ({} : Extraction).record.text kind = [] := by cases kind <;> rfl
  rw [ofRoot, Extraction.text_foldl_take, h]
  simp

/-- **Keyed sections**: the entries of the sections with a key, one after another. -/
theorem entries_ofRoot (root : Element) (kind : KeyedSection) :
    (ofRoot root).entries kind = .ofList (root.elements.filterMap kind.entryIn?) := by
  have h : ({} : Extraction).record.entries kind = .empty := by cases kind <;> rfl
  rw [ofRoot, Extraction.entries_foldl_take, h]
  rfl

/-- **See-alsos**: those met while the sections are taken in. -/
theorem seeAlsos_ofRoot (root : Element) :
    (ofRoot root).seeAlsos = .ofList (listed (sectionsTrace .termFirst [] root.elements)) := by
  rw [ofRoot, Extraction.seeAlsos_foldl_take]
  rfl

end Record

end DocComment
