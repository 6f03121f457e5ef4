import DocComment.Comment
import DocComment.Proofs.Xml.RoundTrip

/-!
Which texts have a record, and which record it is.

* **Accepted texts.** A text has a record exactly if it is not void and is a document, and then
  the record is that of the root (`read_eq_ok_some_iff`).
* **Written comments.** Every written form of an element has the record of that element
  (`read_of_writesNode`).
-/

namespace DocComment.Comment

/-- The texts that have a record. -/
theorem read_eq_ok_some_iff {t : Text} {r : Record} :
    read (some t) = .ok (some r) ↔
      isVoid t = false ∧ ∃ root, Xml.readDocument t = .ok root ∧ Record.ofRoot root = r := by
  rw [read]
  cases hvoid : isVoid t with
  | true => simp
  | false =>
      cases hread : Xml.readDocument t with
      | error e => simp [Except.map]
      | ok root => simp [Except.map]

/-- A written element is neither blank nor commented out. -/
lemma isVoid_of_writesNode {root : Xml.Element} {t : Text} (h : Xml.WritesNode root.toNode t)
    (hroot : root.toNode.isWritable = true) : isVoid t = false := by
  obtain ⟨tag, content⟩ := root
  simp only [Xml.Element.toNode, Xml.Node.isWritable, Bool.and_eq_true] at hroot
  obtain ⟨c, name, hname, hc⟩ := Xml.Tag.eq_cons_of_isName (Xml.Tag.isPlain_iff.mp hroot.1.1).1
  have hbang : ('!' == c) = false := by
    refine beq_eq_false_iff_ne.mpr ?_
    rintro rfl
    exact absurd hc (by decide)
  have hopen : ∀ rest : Text, isVoid ('<' :: c :: rest) = false := by
    intro rest
    have hspace : Text.isSpace '<' = false := rfl
    simp [isVoid, Text.isBlank, hspace, List.isPrefixOf, hbang]
  cases h with
  | selfClosing => simpa [hname] using hopen _
  | paired => simpa [hname] using hopen _

/-- **Written comments** have the record of the element that is written. -/
theorem read_of_writesNode {root : Xml.Element} {t : Text} (h : Xml.WritesNode root.toNode t)
    (hroot : root.toNode.isWritable = true) :
    read (some t) = .ok (some (Record.ofRoot root)) :=
  read_eq_ok_some_iff.mpr
    ⟨isVoid_of_writesNode h hroot, root, Xml.readDocument_eq_ok h hroot, rfl⟩

end DocComment.Comment
