import DocComment.Text.CharClass

/-!
Maps that remember the order in which their keys were first inserted. Inserting under a key
that is there already replaces the value and keeps the place.

* **No key occurs twice**: the type holds the proof.
* **Reading** is by `get?`; `get?_insert_self` and `keys_insert` say what an insertion does.
-/

namespace DocComment

/-- A map from texts that keeps the order of first insertion. -/
structure OrderedMap (α : Type) where
  entries : List (Text × α) := []
  nodup : (entries.map Prod.fst).Nodup := by exact .nil
  deriving DecidableEq, Repr

namespace OrderedMap

variable {α : Type}

/-- The map without entries. -/
def empty : OrderedMap α := ⟨[], .nil⟩

instance : Inhabited (OrderedMap α) := ⟨empty⟩

/-- The keys, oldest first. -/
def keys (m : OrderedMap α) : List Text :=
  m.entries.map Prod.fst

/-- The value under a key. -/
def get? (m : OrderedMap α) (key : Text) : Option α :=
  m.entries.lookup key

/-- The number of entries. -/
def size (m : OrderedMap α) : Nat :=
  m.entries.length

/-- Whether there are no entries. -/
def isEmpty (m : OrderedMap α) : Bool :=
  m.entries.isEmpty

/-- Puts a value in the place of its key, or at the end. -/
def put (key : Text) (value : α) : List (Text × α) → List (Text × α)
  | [] => [(key, value)]
  | (k, v) :: rest => if k = key then (k, value) :: rest else (k, v) :: put key value rest

theorem map_fst_put (key : Text) (value : α) (es : List (Text × α)) :
    (put key value es).map Prod.fst =
      if key ∈ es.map Prod.fst then es.map Prod.fst else es.map Prod.fst ++ [key] := by
  induction es with
  | nil => simp [put]
  | cons e rest ih =>
    obtain ⟨k, v⟩ := e
    rw [put]
    by_cases h : k = key
    · simp [h]
    · have h' : ¬ key = k := fun e => h e.symm
      simp only [h, if_false, List.map_cons, List.mem_cons, h', false_or, ih]
      split <;> simp

theorem nodup_put (key : Text) (value : α) {es : List (Text × α)}
    (h : (es.map Prod.fst).Nodup) : ((put key value es).map Prod.fst).Nodup := by
  rw [map_fst_put]
  split
  · exact h
  · rename_i hmem
    rw [List.nodup_append]
    refine ⟨h, List.nodup_cons.mpr ⟨by simp, .nil⟩, fun a ha b hb => ?_⟩
    rw [List.mem_singleton] at hb
    exact fun hab => hmem ((hab.trans hb) ▸ ha)

/-- Sets the value under a key. -/
def insert (m : OrderedMap α) (key : Text) (value : α) : OrderedMap α where
  entries := put key value m.entries
  nodup := nodup_put key value m.nodup

/-- Inserts entries one after another. -/
def insertAll (m : OrderedMap α) (es : List (Text × α)) : OrderedMap α :=
  es.foldl (fun m e => m.insert e.1 e.2) m

/-- The map of a list of entries. Of two entries with one key the later gives the value and the
earlier the place. -/
def ofList (es : List (Text × α)) : OrderedMap α :=
  empty.insertAll es

/-- An insertion adds its key at the end, unless the key is there. -/
theorem keys_insert (m : OrderedMap α) (key : Text) (value : α) :
    (m.insert key value).keys = if key ∈ m.keys then m.keys else m.keys ++ [key] :=
  map_fst_put key value m.entries

theorem lookup_put_self (key : Text) (value : α) (es : List (Text × α)) :
    (put key value es).lookup key = some value := by
  induction es with
  | nil => simp [put]
  | cons e rest ih =>
    obtain ⟨k, v⟩ := e
    rw [put]
    by_cases h : k = key
    · simp [h]
    · have h' : (key == k) = false := by simpa using fun e => h e.symm
      simp only [h, if_false, List.lookup_cons, h', ih]

/-- What was inserted last is found. -/
theorem get?_insert_self (m : OrderedMap α) (key : Text) (value : α) :
    (m.insert key value).get? key = some value :=
  lookup_put_self key value m.entries

theorem insertAll_append (m : OrderedMap α) (xs ys : List (Text × α)) :
    m.insertAll (xs ++ ys) = (m.insertAll xs).insertAll ys := by
  simp [insertAll]

end OrderedMap

end DocComment
