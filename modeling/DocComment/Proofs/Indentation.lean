import DocComment.Proofs.Body.OwnText
import DocComment.Proofs.Comment
import DocComment.Proofs.SectionByTag

/-!
The indentation of the source in the texts of a record.

* **Texts and maps.** A text, or a value of a map, has a line that begins with white space just if
  an own text of a list item in its section has one (`Comment.isFlush_iff_ownTexts`).
* **Own texts may be indented.** Between the lines of an item that has neither a term nor a
  description the indentation stays (`Comment.not_forall_isFlush`).
-/

namespace DocComment

open Xml Body Text

namespace Record

/-- A text is flush if the own texts in the section that gives it are. -/
lemma isFlush_text_ofRoot_iff (root : Element) (kind : TextSection) :
    IsFlush ((ofRoot root).text kind) ↔
      ∀ sec, root.child? kind.tagName = some sec →
        ∀ own ∈ contentOwnTexts sec.content, IsFlush own := by
  rw [text_ofRoot_eq_child?]
  cases root.child? kind.tagName with
  | none => simp [isFlush_nil]
  | some sec =>
      rw [Option.map_some, Option.getD_some]
      simp only [Option.some.injEq, forall_eq']
      exact isFlush_render_iff kind.spacing .empty sec

end Record

namespace Comment

/-- **Source indentation does not reach the texts**, but for the own texts of items: in an accepted
comment no line of a text begins with white space just if none does in the own texts of the section
that gives it, and the same holds of each value of a map. -/
theorem isFlush_iff_ownTexts {t : Text} {r : Record} (h : read (some t) = .ok (some r)) :
    ∃ root, readDocument t = .ok root ∧
      (∀ kind, IsFlush (r.text kind) ↔
        ∀ sec, root.child? kind.tagName = some sec →
          ∀ own ∈ contentOwnTexts sec.content, IsFlush own) ∧
      ∀ kind key text, (r.entries kind).get? key = some text →
        ∃ sec ∈ root.childrenNamed kind.tagName,
          (kind.key? sec).map MemberId.name = some key ∧ text = bodyText .preserve sec ∧
            (IsFlush text ↔ ∀ own ∈ contentOwnTexts sec.content, IsFlush own) := by
  obtain ⟨-, root, hroot, rfl⟩ := read_eq_ok_some_iff.mp h
  refine ⟨root, hroot, Record.isFlush_text_ofRoot_iff root, fun kind key text htext => ?_⟩
  obtain ⟨sec, hsec, hkey, rfl⟩ := Record.exists_section_of_get? htext
  exact ⟨sec, hsec, hkey, rfl, isFlush_render_iff .preserve .empty sec⟩

/-- The own text of an item, in two lines of which the second is indented. -/
def indentedText : Text := "first\n    second".toList

/-- Remarks with a list of this item. -/
def indentedRemarks : Element where
  tag := { name := "remarks".toList }
  content :=
    [.element
      { name := "list".toList, attributes := .ofList [("type".toList, "bullet".toList)] }
      [.element { name := "item".toList } [.text indentedText]]]

/-- A comment with these remarks. -/
def indentedRoot : Element where
  tag := { name := "doc".toList }
  content := [indentedRemarks.toNode]

/-- The comment as it is written. -/
def indentedSource : Text :=
  "<doc><remarks><list type=\"bullet\"><item>first\n    second</item></list></remarks></doc>".toList

lemma writesNode_indentedRoot : WritesNode indentedRoot.toNode indentedSource := by
  have hwritten : indentedRoot.toNode.written = indentedSource := by decide +kernel
  rw [← hwritten]
  exact writesNode_written _ rfl

lemma not_isFlush_indentedText : ¬ IsFlush indentedText := fun h =>
  absurd (h "    second".toList (by decide) ' ' rfl) (by decide)

/-- The second line of the item is indented in the remarks. -/
theorem not_isFlush_remarks_indentedRoot :
    read (some indentedSource) = .ok (some (Record.ofRoot indentedRoot)) ∧
      ¬ IsFlush (Record.ofRoot indentedRoot).remarks := by
  have hread := read_of_writesNode writesNode_indentedRoot rfl
  obtain ⟨root, hroot, htexts, -⟩ := isFlush_iff_ownTexts hread
  obtain rfl : indentedRoot = root := eq_of_readDocument writesNode_indentedRoot rfl hroot
  refine ⟨hread, fun hflush => not_isFlush_indentedText ?_⟩
  have hown : contentOwnTexts indentedRemarks.content = [indentedText] := by decide +kernel
  exact (htexts .remarks).mp hflush indentedRemarks rfl indentedText (hown ▸ List.mem_cons_self)

/-- So source indentation does reach the texts. -/
theorem not_forall_isFlush :
    ¬ ∀ t r, read (some t) = .ok (some r) →
      (∀ kind, kind ≠ .summary → IsFlush (r.text kind)) ∧
        ∀ kind key text, (r.entries kind).get? key = some text → IsFlush text := by
  intro hall
  have hread := read_of_writesNode writesNode_indentedRoot rfl
  have hremarks := (hall _ _ hread).1 .remarks (by decide)
  rw [Record.text, show (Record.ofRoot indentedRoot).remarks = "* first\n    second".toList by
    decide +kernel] at hremarks
  exact absurd (hremarks "    second".toList (by decide) ' ' rfl) (by decide)

end Comment

end DocComment
