import DocComment.Proofs.Comment
import DocComment.Proofs.NormalForm
import DocComment.Proofs.Section

/-!
What holds of the texts in every record.

* **Tidy records.** The texts and the values of the maps are trimmed, and what stands under the key
  of a see-also is this key or a text that was laid out (`Record.IsTidy`).
* **Every step keeps a record tidy**: what a section gives is tidy by itself
  (`IsShownFor.of_mem_listed`), and an insertion brings nothing else (`Extraction.isTidy_take`).
* So the record of every accepted comment is tidy, and no key of its maps occurs twice
  (`Comment.isTidy_of_read`).
-/

namespace DocComment

open Xml Body Text

/-- Whether a text is fit to be shown for a key: it is the key, or it has been laid out. -/
def IsShownFor (key shown : Text) : Prop :=
  shown = key ∨ shown ≠ [] ∧ IsTrimmed shown ∧ ∃ s : Spacing, s.normalize shown = shown

/-- What every record has in common, however its sections are written. -/
structure Record.IsTidy (r : Record) : Prop where
  text : ∀ kind, IsTrimmed (r.text kind)
  entries : ∀ kind, ∀ entry ∈ (r.entries kind).entries, IsTrimmed entry.2
  seeAlsos : ∀ entry ∈ r.seeAlsos.entries, IsShownFor entry.1 entry.2

/-! ### What a section gives -/

/-- A see-also shows its key or its body laid out. -/
lemma isShownFor_seeAlsoDisplay (s : Spacing) (tag : Tag) (body : Text) :
    IsShownFor (seeAlsoKey tag) (seeAlsoDisplay s tag body) := by
  have hnormal := Spacing.isNormal_normalize s (trim body)
  rw [seeAlsoDisplay]
  split
  · exact .inl rfl
  · rename_i hne
    exact .inr ⟨mt List.isEmpty_iff.mpr hne, hnormal.isTrimmed, s, hnormal.normalize_eq⟩

lemma IsShownFor.of_mem_listed {met : List Event} {entry : Text × Text} (h : entry ∈ listed met) :
    IsShownFor entry.1 entry.2 := by
  obtain ⟨ev, -, hentry⟩ := List.mem_filterMap.mp h
  cases ev with
  | seeAlso s e =>
      obtain rfl := Option.some.inj hentry
      exact isShownFor_seeAlsoDisplay s e.tag _
  | item content => cases hentry

lemma TextSection.isTrimmed_of_text? {kind : TextSection} {e : Element} {t : Text}
    (h : kind.text? e = some t) : IsTrimmed t := by
  rw [text?, Option.ite_none_right_eq_some] at h
  obtain rfl := Option.some.inj h.2
  exact isTrimmed_trim _

lemma KeyedSection.isTrimmed_of_entryIn? {kind : KeyedSection} {e : Element} {entry : Text × Text}
    (h : kind.entryIn? e = some entry) : IsTrimmed entry.2 := by
  rw [entryIn?, Option.ite_none_right_eq_some] at h
  obtain ⟨id, -, rfl⟩ := Option.map_eq_some_iff.mp h.2
  exact isTrimmed_trim _

/-! ### Taking in sections -/

namespace Extraction

/-- **A section** keeps a record tidy. -/
lemma isTidy_take {x : Extraction} (h : x.record.IsTidy) (e : Element) :
    (x.take e).record.IsTidy where
  text kind := by
    rw [(take_text x e kind).1]
    split
    · exact h.text kind
    · cases ht : kind.text? e with
      | none => exact h.text kind
      | some t => exact TextSection.isTrimmed_of_text? ht
  entries kind entry hentry := by
    rw [entries_take] at hentry
    rcases OrderedMap.mem_entries_insertAll hentry with hbefore | hnew
    · exact h.entries kind entry hbefore
    · exact KeyedSection.isTrimmed_of_entryIn? (Option.mem_toList.mp hnew)
  seeAlsos entry hentry := by
    rw [(take_seeAlsos x e).1] at hentry
    rcases OrderedMap.mem_entries_insertAll hentry with hbefore | hnew
    · exact h.seeAlsos entry hbefore
    · exact .of_mem_listed hnew

/-- **Sections taken in one after another** keep a record tidy. -/
lemma isTidy_foldl_take {x : Extraction} (h : x.record.IsTidy) (es : List Element) :
    (es.foldl take x).record.IsTidy := by
  induction es generalizing x with
  | nil => exact h
  | cons e es ih => exact ih (isTidy_take h e)

end Extraction

namespace Record

lemma isTidy_empty : ({} : Record).IsTidy where
  text kind := by cases kind <;> exact isTrimmed_nil
  entries kind := by cases kind <;> exact nofun
  seeAlsos := nofun

lemma isTidy_ofRoot (root : Element) : (ofRoot root).IsTidy :=
  Extraction.isTidy_foldl_take isTidy_empty root.elements

end Record

namespace Comment

/-- **Every record is tidy**, and its keys are distinct, those of the see-alsos too. -/
theorem isTidy_of_read {t : Option Text} {r : Record} (h : read t = .ok (some r)) :
    r.IsTidy ∧ (∀ kind, (r.entries kind).keys.Nodup) ∧ r.seeAlsos.keys.Nodup := by
  refine ⟨?_, fun kind => (r.entries kind).nodup, r.seeAlsos.nodup⟩
  cases t with
  | none => cases h
  | some t =>
      obtain ⟨-, root, -, rfl⟩ := read_eq_ok_some_iff.mp h
      exact Record.isTidy_ofRoot root

/-- A comment with much white space: in its summary, in a see-also there, and in place of the body
of another. -/
def looseRoot : Element where
  tag := { name := "doc".toList }
  content :=
    [.element { name := "summary".toList }
        [.text " Uses ".toList,
          .element { name := "seealso".toList, attributes := .ofList [("cref".toList, ['A'])] }
            [.text " b\n  c ".toList]],
      .element { name := "param".toList, attributes := .ofList [("name".toList, ['p'])] }
        [.text " x\n ".toList],
      .element { name := "seealso".toList, attributes := .ofList [("cref".toList, ['B'])] }
        [.text ['\n']]]

/-- The comment as it is written. -/
def looseText : Text :=
  "<doc><summary> Uses <seealso cref=\"A\"> b\n  c </seealso></summary>".toList ++
    "<param name=\"p\"> x\n </param><seealso cref=\"B\">\n</seealso></doc>".toList

lemma writesNode_looseRoot : WritesNode looseRoot.toNode looseText := by
  have hwritten : looseRoot.toNode.written = looseText := by decide +kernel
  rw [← hwritten]
  exact writesNode_written _ rfl

theorem isTidy_looseRoot :
    read (some looseText) = .ok (some (Record.ofRoot looseRoot)) ∧
      (Record.ofRoot looseRoot).IsTidy ∧
      (Record.ofRoot looseRoot).seeAlsos.entries =
        [(['A'], "b c".toList), (['B'], ['B'])] := by
  have hread := read_of_writesNode writesNode_looseRoot rfl
  exact ⟨hread, (isTidy_of_read hread).1, by decide +kernel⟩

end Comment

end DocComment
