import DocComment.Json.Layout
import Mathlib.Data.List.Basic

/-!
The compact text of JSON values.

* **Levels do not matter.** Compact text breaks no lines, so it is the same inside a container and
  by itself (`Value.written_compact`).
* **Objects** are therefore put together from the texts of their members as these are by themselves
  (`Value.written_object_compact`).
-/

namespace DocComment.Json.Value

mutual

/-- Compact text is the same at every level. -/
theorem written_compact (level : ℕ) (v : Value) :
    v.written .compact level = v.written .compact 0 := by
  cases v with
  | null => rfl
  | bool b => cases b <;> rfl
  | number digits => rfl
  | string units => rfl
  | array items =>
      cases items with
      | nil => rfl
      | cons v vs =>
          rw [written, written, written_compact (level + 1) v, written_compact (0 + 1) v,
            moreItems_compact (level + 1) vs, moreItems_compact (0 + 1) vs]
          rfl
  | object members =>
      cases members with
      | nil => rfl
      | cons m ms =>
          obtain ⟨name, v⟩ := m
          rw [written, written, written_compact (level + 1) v, written_compact (0 + 1) v,
            moreMembers_compact (level + 1) ms, moreMembers_compact (0 + 1) ms]
          rfl

theorem moreItems_compact (level : ℕ) (vs : List Value) :
    moreItems .compact level vs = moreItems .compact 0 vs := by
  cases vs with
  | nil => rfl
  | cons v vs =>
      rw [moreItems, moreItems, written_compact level v, moreItems_compact level vs]
      rfl

theorem moreMembers_compact (level : ℕ) (ms : List (Units × Value)) :
    moreMembers .compact level ms = moreMembers .compact 0 ms := by
  cases ms with
  | nil => rfl
  | cons m ms =>
      obtain ⟨name, v⟩ := m
      rw [moreMembers, moreMembers, written_compact level v, moreMembers_compact level ms]
      rfl

end

/-- The member of an object under a name, given the text of its value. -/
def memberText (m : Text × Text) : Text :=
  (Units.ofText m.1).written ++ ':' :: m.2

/-- An object, given the texts of the values of its members. -/
def objectText (members : List (Text × Text)) : Text :=
  '\x7b' :: [','].intercalate (members.map memberText) ++ ['\x7d']

variable {α : Type} (write : α → Value)

/-- A member and those behind it are separated by commas. -/
lemma memberText_append_moreMembers (e : Text × α) (es : List (Text × α)) :
    memberText (e.1, (write e.2).written .compact 0) ++
        moreMembers .compact 0 (es.map fun e => (.ofText e.1, write e.2)) =
      [','].intercalate
        ((e :: es).map fun e => memberText (e.1, (write e.2).written .compact 0)) := by
  induction es generalizing e with
  | nil => simp [moreMembers, List.intercalate]
  | cons e' es ih =>
      have hmore : moreMembers .compact 0 ((e' :: es).map fun e => (.ofText e.1, write e.2)) =
          ',' :: (memberText (e'.1, (write e'.2).written .compact 0) ++
            moreMembers .compact 0 (es.map fun e => (.ofText e.1, write e.2))) := by
        rw [List.map_cons, moreMembers, memberText]
        simp [Layout.lineBreak, Layout.colon]
      rw [hmore, ih]
      simp [List.intercalate]

/-- **The compact text of an object** is made of the compact texts of its values. -/
theorem written_object_compact (level : ℕ) (es : List (Text × α)) :
    (object (es.map fun e => (.ofText e.1, write e.2))).written .compact level =
      objectText (es.map fun e => (e.1, (write e.2).written .compact 0)) := by
  cases es with
  | nil => rfl
  | cons e es =>
      have hmembers := memberText_append_moreMembers write e es
      rw [List.map_cons, written, written_compact (level + 1), moreMembers_compact (level + 1),
        objectText, List.map_map, Function.comp_def, ← hmembers, memberText]
      simp [Layout.lineBreak, Layout.colon]

end DocComment.Json.Value
