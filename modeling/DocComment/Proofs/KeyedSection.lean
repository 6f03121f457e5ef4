import DocComment.Proofs.Comment
import DocComment.Proofs.Section

/-!
The keys of the maps that keyed sections go to.

* **Where keys come from.** A key is the name in the attribute of a section, and the attribute
  is not blank (`mem_keys_entries`).
* **Blank keys.** The attribute is looked at before the mark of its kind is dropped, so a mark
  with nothing but white space after it gives a blank key. This is the only way to one
  (`exists_blank_key_iff`).
-/

namespace DocComment

open Xml

namespace MemberId

/-- The name in an id that is not blank is blank exactly if the id is a mark with white space
after it. -/
lemma isBlank_name_iff {id : Text} (h : Text.isBlank id = false) :
    Text.isBlank (name id) = true ↔
      ∃ mark ∈ kinds, ∃ rest, id = mark :: ':' :: rest ∧ Text.isBlank rest = true := by
  constructor
  · intro hblank
    simp only [name, h, Bool.false_eq_true, if_false] at hblank
    split at hblank
    · rename_i mark rest
      split at hblank
      · rename_i hmark
        exact ⟨mark, hmark, rest, rfl, hblank⟩
      · rw [h] at hblank
        cases hblank
    · rw [h] at hblank
      cases hblank
  · rintro ⟨mark, hmark, rest, rfl, hblank⟩
    rw [name_cons_colon hmark]
    exact hblank

end MemberId

namespace KeyedSection

variable {kind : KeyedSection}

lemma key?_eq_some_iff {e : Element} {id : Text} :
    kind.key? e = some id ↔ e.attribute? kind.keyAttribute = some id ∧ Text.isBlank id = false := by
  rw [key?, Option.filter_eq_some_iff, Bool.not_eq_true']

/-- Whether an element is a section of a kind with a given id in its attribute. -/
def HasId (kind : KeyedSection) (e : Element) (id : Text) : Prop :=
  Section.of? e = some (.keyed kind) ∧ e.attribute? kind.keyAttribute = some id

lemma exists_entryIn?_iff {e : Element} {key : Text} :
    (∃ text, kind.entryIn? e = some (key, text)) ↔
      ∃ id, kind.HasId e id ∧ Text.isBlank id = false ∧ MemberId.name id = key := by
  simp only [entryIn?, HasId]
  constructor
  · rintro ⟨text, h⟩
    split at h
    · rename_i hkind
      obtain ⟨id, hid, hentry⟩ := Option.map_eq_some_iff.mp h
      obtain ⟨hattribute, hblank⟩ := key?_eq_some_iff.mp hid
      exact ⟨id, ⟨hkind, hattribute⟩, hblank, congrArg Prod.fst hentry⟩
    · cases h
  · rintro ⟨id, ⟨hkind, hattribute⟩, hblank, rfl⟩
    rw [if_pos hkind, key?_eq_some_iff.mpr ⟨hattribute, hblank⟩]
    exact ⟨_, rfl⟩

end KeyedSection

namespace Record

/-- The keys in a map are the names in the ids of its sections, as far as these are not blank. -/
theorem mem_keys_entries (root : Element) (kind : KeyedSection) (key : Text) :
    key ∈ ((ofRoot root).entries kind).keys ↔
      ∃ e ∈ root.elements, ∃ id, kind.HasId e id ∧ Text.isBlank id = false ∧
        MemberId.name id = key := by
  rw [entries_ofRoot, OrderedMap.mem_keys_ofList, List.mem_map]
  constructor
  · rintro ⟨⟨k, text⟩, hmem, rfl⟩
    obtain ⟨e, he, hentry⟩ := List.mem_filterMap.mp hmem
    exact ⟨e, he, KeyedSection.exists_entryIn?_iff.mp ⟨text, hentry⟩⟩
  · rintro ⟨e, he, hid⟩
    obtain ⟨text, hentry⟩ := KeyedSection.exists_entryIn?_iff.mpr hid
    exact ⟨(key, text), List.mem_filterMap.mpr ⟨e, he, hentry⟩, rfl⟩

end Record

namespace Comment

/-- **Blank keys.** A keyed section of a comment has a blank key exactly if the id in the
attribute of one of its elements is the mark of a kind with nothing but white space after it. -/
theorem exists_blank_key_iff {t : Text} {r : Record} (h : read (some t) = .ok (some r))
    (kind : KeyedSection) :
    (∃ key ∈ (r.entries kind).keys, Text.isBlank key = true) ↔
      ∃ root, readDocument t = .ok root ∧ ∃ e ∈ root.elements, ∃ mark ∈ MemberId.kinds, ∃ rest,
        kind.HasId e (mark :: ':' :: rest) ∧ Text.isBlank rest = true := by
  obtain ⟨-, root, hroot, rfl⟩ := read_eq_ok_some_iff.mp h
  constructor
  · rintro ⟨key, hmem, hblank⟩
    obtain ⟨e, he, id, hid, hne, rfl⟩ := (Record.mem_keys_entries root kind key).mp hmem
    obtain ⟨mark, hmark, rest, rfl, hrest⟩ := (MemberId.isBlank_name_iff hne).mp hblank
    exact ⟨root, hroot, e, he, mark, hmark, rest, hid, hrest⟩
  · rintro ⟨root', hroot', e, he, mark, hmark, rest, hid, hrest⟩
    obtain rfl : root = root' := Except.ok.inj (hroot.symm.trans hroot')
    have hne : Text.isBlank (mark :: ':' :: rest) = false := by
      have hcolon : Text.isSpace ':' = false := rfl
      simp [Text.isBlank, hcolon]
    refine ⟨rest, (Record.mem_keys_entries root kind rest).mpr
      ⟨e, he, _, hid, hne, MemberId.name_cons_colon hmark rest⟩, hrest⟩

/-- A comment on a parameter whose name is a mark alone. -/
def markOnlyRoot : Element where
  tag := { name := "doc".toList }
  content :=
    [.element { name := "param".toList, attributes := .ofList [("name".toList, "T:".toList)] }
      [.text ['x']]]

lemma writesNode_markOnlyRoot :
    WritesNode markOnlyRoot.toNode "<doc><param name=\"T:\">x</param></doc>".toList := by
  have hwritten : markOnlyRoot.toNode.written =
      "<doc><param name=\"T:\">x</param></doc>".toList := by decide
  rw [← hwritten]
  exact writesNode_written _ rfl

theorem exists_blank_key_markOnlyRoot :
    read (some "<doc><param name=\"T:\">x</param></doc>".toList) =
        .ok (some (Record.ofRoot markOnlyRoot)) ∧
      ∃ key ∈ ((Record.ofRoot markOnlyRoot).entries .params).keys, Text.isBlank key = true := by
  have hread := read_of_writesNode writesNode_markOnlyRoot rfl
  have hroot := readDocument_eq_ok writesNode_markOnlyRoot rfl
  refine ⟨hread, (exists_blank_key_iff hread .params).mpr ⟨markOnlyRoot, hroot, ?_⟩⟩
  exact ⟨_, List.mem_cons_self, 'T', by decide, [], ⟨rfl, rfl⟩, rfl⟩

/-- So it is not the case that all keys show a visible character. -/
theorem not_forall_key_visible :
    ¬ ∀ t r, read (some t) = .ok (some r) →
      ∀ kind, ∀ key ∈ (r.entries kind).keys, Text.isBlank key = false := by
  intro hall
  have hread := read_of_writesNode writesNode_markOnlyRoot rfl
  have hvisible := hall _ _ hread .params [] (by decide)
  exact absurd hvisible (by decide)

end Comment

end DocComment
