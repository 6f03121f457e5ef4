import DocComment.OrderedMap
import Mathlib.Tactic.Common

/-!
What a sequence of insertions makes of a map.

* **The last value wins.** Under a key stands what the last entry with that key says, and what
  the map said before if there is none (`get?_insertAll`).
* **No key is lost and none appears by itself** (`mem_keys_insertAll`), nor does any entry
  (`mem_entries_insertAll`).
* **A map is its list of entries**: inserting fresh keys appends (`entries_insertAll`), so the
  entries of a map, inserted in their order, give the map again (`ofList_entries`).
-/

namespace DocComment

namespace OrderedMap

variable {α : Type}

/-- Two maps with the same entries are the same. -/
lemma ext_entries {m n : OrderedMap α} (h : m.entries = n.entries) : m = n := by
  cases m
  cases n
  simpa using h

@[simp] lemma insertAll_nil (m : OrderedMap α) : m.insertAll [] = m := rfl

@[simp] lemma insertAll_cons (m : OrderedMap α) (e : Text × α) (es : List (Text × α)) :
    m.insertAll (e :: es) = (m.insert e.1 e.2).insertAll es := rfl

/-! ### Values -/

lemma lookup_put_of_ne {key k : Text} (h : key ≠ k) (value : α) (es : List (Text × α)) :
    (put k value es).lookup key = es.lookup key := by
  have hk : (key == k) = false := by simpa using h
  induction es with
  | nil => simp [put, h]
  | cons e rest ih =>
      obtain ⟨k', v⟩ := e
      rw [put]
      by_cases he : k' = k
      · subst he
        simp [List.lookup_cons, hk]
      · simp only [he, if_false, List.lookup_cons, ih]

lemma get?_insert (m : OrderedMap α) (key k : Text) (value : α) :
    (m.insert k value).get? key = if key = k then some value else m.get? key := by
  by_cases h : key = k
  · subst h
    rw [if_pos rfl]
    exact get?_insert_self m key value
  · rw [if_neg h]
    exact lookup_put_of_ne h value m.entries

/-- The value of the last entry with a given key. -/
def lastValue? (es : List (Text × α)) (key : Text) : Option α :=
  es.reverse.lookup key

lemma mem_of_lastValue? {es : List (Text × α)} {key : Text} {value : α}
    (h : lastValue? es key = some value) : (key, value) ∈ es := by
  obtain ⟨xs, ys, happ, -⟩ := List.lookup_eq_some_iff.mp h
  rw [← List.mem_reverse, happ]
  exact List.mem_append_right xs List.mem_cons_self

lemma lastValue?_append (xs ys : List (Text × α)) (key : Text) :
    lastValue? (xs ++ ys) key = (lastValue? ys key).or (lastValue? xs key) := by
  rw [lastValue?, List.reverse_append, List.lookup_append]
  rfl

lemma lastValue?_singleton (k key : Text) (value : α) :
    lastValue? [(k, value)] key = if key = k then some value else none := by
  rw [lastValue?, List.reverse_singleton, List.lookup_cons, List.lookup_nil]
  by_cases h : key = k
  · simp [h]
  · have hk : (key == k) = false := by simpa using h
    rw [hk, if_neg h]

/-- **The last value wins.** -/
theorem get?_insertAll (m : OrderedMap α) (es : List (Text × α)) (key : Text) :
    (m.insertAll es).get? key = (lastValue? es key).or (m.get? key) := by
  induction es generalizing m with
  | nil => rfl
  | cons e rest ih =>
      obtain ⟨k, v⟩ := e
      have hfirst : (lastValue? [(k, v)] key).or (m.get? key) = (m.insert k v).get? key := by
        rw [get?_insert, lastValue?_singleton]
        split
        · rfl
        · rfl
      rw [insertAll_cons, ih, ← hfirst, ← Option.or_assoc, ← lastValue?_append,
        List.singleton_append]

lemma get?_ofList (es : List (Text × α)) (key : Text) :
    (ofList es).get? key = lastValue? es key := by
  have h : (empty : OrderedMap α).get? key = none := rfl
  rw [ofList, get?_insertAll, h, Option.or_none]

/-! ### Keys -/

lemma mem_keys_insert (m : OrderedMap α) (key k : Text) (value : α) :
    key ∈ (m.insert k value).keys ↔ key ∈ m.keys ∨ key = k := by
  rw [keys_insert]
  split
  · rename_i hk
    constructor
    · exact Or.inl
    · rintro (h | rfl)
      · exact h
      · exact hk
  · simp

/-- The keys after some insertions: those of before and those inserted. -/
theorem mem_keys_insertAll (m : OrderedMap α) (es : List (Text × α)) (key : Text) :
    key ∈ (m.insertAll es).keys ↔ key ∈ m.keys ∨ key ∈ es.map Prod.fst := by
  induction es generalizing m with
  | nil => simp
  | cons e rest ih =>
      rw [insertAll_cons, ih, mem_keys_insert, List.map_cons, List.mem_cons, or_assoc]

lemma mem_keys_ofList (es : List (Text × α)) (key : Text) :
    key ∈ (ofList es).keys ↔ key ∈ es.map Prod.fst := by
  have h : (empty : OrderedMap α).keys = [] := rfl
  rw [ofList, mem_keys_insertAll, h]
  simp

/-! ### Entries -/

lemma mem_put {key : Text} {value : α} {es : List (Text × α)} {e : Text × α}
    (h : e ∈ put key value es) : e = (key, value) ∨ e ∈ es := by
  induction es with
  | nil => exact .inl (List.mem_singleton.mp h)
  | cons first rest ih =>
      rw [put] at h
      split at h
      · rename_i hkey
        rcases List.mem_cons.mp h with rfl | hrest
        · exact .inl (by rw [hkey])
        · exact .inr (List.mem_cons_of_mem _ hrest)
      · rcases List.mem_cons.mp h with rfl | hrest
        · exact .inr List.mem_cons_self
        · exact (ih hrest).imp_right (List.mem_cons_of_mem _)

/-- The entries after some insertions are among those of before and those inserted. -/
lemma mem_entries_insertAll {m : OrderedMap α} {es : List (Text × α)} {e : Text × α}
    (h : e ∈ (m.insertAll es).entries) : e ∈ m.entries ∨ e ∈ es := by
  induction es generalizing m with
  | nil => exact .inl h
  | cons first rest ih =>
      rcases ih h with hbefore | hrest
      · rcases mem_put hbefore with rfl | hm
        · exact .inr List.mem_cons_self
        · exact .inl hm
      · exact .inr (List.mem_cons_of_mem _ hrest)

lemma put_of_not_mem {key : Text} {es : List (Text × α)} (h : key ∉ es.map Prod.fst)
    (value : α) : put key value es = es ++ [(key, value)] := by
  induction es with
  | nil => rfl
  | cons e rest ih =>
      obtain ⟨k, v⟩ := e
      simp only [List.map_cons, List.mem_cons, not_or] at h
      have hk : ¬ k = key := fun he => h.1 he.symm
      rw [put, if_neg hk, ih h.2, List.cons_append]

/-- Entries with keys that are fresh and distinct are appended. -/
theorem entries_insertAll (m : OrderedMap α) {es : List (Text × α)}
    (h : ((m.entries ++ es).map Prod.fst).Nodup) :
    (m.insertAll es).entries = m.entries ++ es := by
  induction es generalizing m with
  | nil => simp
  | cons e rest ih =>
      have hfresh : e.1 ∉ m.entries.map Prod.fst := by
        intro hmem
        rw [List.map_append, List.nodup_append] at h
        exact h.2.2 e.1 hmem e.1 (by simp) rfl
      have hput : (m.insert e.1 e.2).entries = m.entries ++ [e] := put_of_not_mem hfresh e.2
      rw [insertAll_cons, ih _ (by rw [hput]; simpa using h), hput]
      simp

/-- A map made of entries with distinct keys has just these entries. -/
lemma entries_ofList {es : List (Text × α)} (h : (es.map Prod.fst).Nodup) :
    (ofList es).entries = es :=
  entries_insertAll empty h

/-- A map is made of its entries. -/
theorem ofList_entries (m : OrderedMap α) : ofList m.entries = m :=
  ext_entries (entries_ofList m.nodup)

end OrderedMap

end DocComment
