import DocComment.Text.CharClass

/-!
The attributes of a tag: a finite map from names to values. The entries are kept sorted by
name, so two maps with the same entries are equal however they were written down.
-/

namespace DocComment.Xml

/-! ### The order of names -/

/-- Whether a name comes before another: it breaks off first, or has the smaller character
where they first differ. -/
def precedes : Text → Text → Bool
  | _, [] => false
  | [], _ :: _ => true
  | c :: s, d :: t => if c = d then precedes s t else decide (c.toNat < d.toNat)

theorem precedes_trans {a b c : Text} (hab : precedes a b = true) (hbc : precedes b c = true) :
    precedes a c = true := by
  induction a generalizing b c with
  | nil =>
    cases b with
    | nil => simp [precedes] at hab
    | cons =>
      cases c with
      | nil => simp [precedes] at hbc
      | cons => rfl
  | cons x s ih =>
    cases b with
    | nil => simp [precedes] at hab
    | cons y t =>
      cases c with
      | nil => simp [precedes] at hbc
      | cons z u =>
        by_cases hxy : x = y <;> by_cases hyz : y = z <;>
          simp only [precedes, hxy, hyz, if_true, if_false, decide_eq_true_eq] at hab hbc ⊢
        · exact ih hab hbc
        · exact hbc
        · subst hyz
          simpa [hxy] using hab
        · have hxz : x ≠ z := fun h => by subst h; omega
          simp only [hxz, if_false, decide_eq_true_eq]
          omega

theorem eq_of_not_precedes {a b : Text} (hab : ¬ precedes a b = true)
    (hba : ¬ precedes b a = true) : a = b := by
  induction a generalizing b with
  | nil =>
    cases b with
    | nil => rfl
    | cons => simp [precedes] at hab
  | cons x s ih =>
    cases b with
    | nil => simp [precedes] at hba
    | cons y t =>
      by_cases hxy : x = y
      · subst hxy
        simp only [precedes, if_true] at hab hba
        rw [ih hab hba]
      · have hyx : ¬ y = x := fun h => hxy h.symm
        simp only [precedes, hxy, hyx, if_false, decide_eq_true_eq] at hab hba
        exact absurd (Char.toNat_inj.mp (by omega)) hxy

/-! ### The map -/

/-- A finite map from attribute names to values. -/
structure Attributes where
  /-- The entries, by ascending name. -/
  entries : List (Text × Text) := []
  /-- No name occurs twice, and the order is fixed. -/
  sorted : entries.Pairwise (fun a b => precedes a.1 b.1) := by exact .nil
  deriving DecidableEq, Repr

namespace Attributes

/-- The map without entries. -/
def empty : Attributes := {}

instance : EmptyCollection Attributes := ⟨empty⟩

instance : Inhabited Attributes := ⟨empty⟩

/-- The value under a name. -/
def get? (m : Attributes) (key : Text) : Option Text :=
  m.entries.lookup key

/-- Puts an entry where the order wants it, in place of an entry with the same name. -/
def insertSorted (key value : Text) : List (Text × Text) → List (Text × Text)
  | [] => [(key, value)]
  | (k, v) :: rest =>
    if precedes key k then (key, value) :: (k, v) :: rest
    else if key = k then (key, value) :: rest
    else (k, v) :: insertSorted key value rest

theorem mem_insertSorted {key value : Text} {es : List (Text × Text)} {e : Text × Text}
    (h : e ∈ insertSorted key value es) : e = (key, value) ∨ e ∈ es := by
  induction es with
  | nil => simpa [insertSorted] using h
  | cons head rest ih =>
    obtain ⟨k, v⟩ := head
    rw [insertSorted] at h
    split at h
    · simpa using h
    · split at h
      · rcases List.mem_cons.mp h with h | h
        · exact .inl h
        · exact .inr (List.mem_cons_of_mem _ h)
      · rcases List.mem_cons.mp h with h | h
        · exact .inr (h ▸ List.mem_cons_self)
        · exact (ih h).imp_right (List.mem_cons_of_mem _)

theorem pairwise_insertSorted (key value : Text) {es : List (Text × Text)}
    (h : es.Pairwise (fun a b => precedes a.1 b.1)) :
    (insertSorted key value es).Pairwise (fun a b => precedes a.1 b.1) := by
  induction es with
  | nil => simp [insertSorted]
  | cons head rest ih =>
    obtain ⟨k, v⟩ := head
    have hrest := List.pairwise_cons.mp h
    rw [insertSorted]
    split
    · rename_i hlt
      refine List.pairwise_cons.mpr ⟨fun e he => ?_, h⟩
      rcases List.mem_cons.mp he with he | he
      · exact he ▸ hlt
      · exact precedes_trans hlt (hrest.1 e he)
    · split
      · rename_i heq
        exact List.pairwise_cons.mpr ⟨fun e he => heq ▸ hrest.1 e he, hrest.2⟩
      · rename_i hlt hne
        refine List.pairwise_cons.mpr ⟨fun e he => ?_, ih hrest.2⟩
        rcases mem_insertSorted he with he | he
        · refine he ▸ Decidable.byContradiction fun hkey => ?_
          exact hne (eq_of_not_precedes hlt hkey)
        · exact hrest.1 e he

theorem lookup_insertSorted_self (key value : Text) (es : List (Text × Text)) :
    (insertSorted key value es).lookup key = some value := by
  induction es with
  | nil => simp [insertSorted]
  | cons head rest ih =>
    obtain ⟨k, v⟩ := head
    rw [insertSorted]
    split
    · simp
    · split
      · simp
      · rename_i hne
        simp [List.lookup_cons, beq_eq_false_iff_ne.mpr hne, ih]

theorem lookup_insertSorted_of_ne {key other : Text} (h : other ≠ key) (value : Text)
    (es : List (Text × Text)) : (insertSorted key value es).lookup other = es.lookup other := by
  have hother : (other == key) = false := beq_eq_false_iff_ne.mpr h
  induction es with
  | nil => simp [insertSorted, List.lookup_cons, hother]
  | cons head rest ih =>
    obtain ⟨k, v⟩ := head
    rw [insertSorted]
    split
    · rw [List.lookup_cons, hother]
    · split
      · rename_i heq
        rw [List.lookup_cons, List.lookup_cons, ← heq, hother]
      · rw [List.lookup_cons, List.lookup_cons, ih]

/-- Sets the value under a name. -/
def insert (m : Attributes) (key value : Text) : Attributes where
  entries := insertSorted key value m.entries
  sorted := pairwise_insertSorted key value m.sorted

/-- The value that is set is found, and the others stay. -/
theorem get?_insert (m : Attributes) (key value k : Text) :
    (m.insert key value).get? k = if k = key then some value else m.get? k := by
  split
  · rename_i h
    rw [h]
    exact lookup_insertSorted_self key value m.entries
  · rename_i h
    exact lookup_insertSorted_of_ne h value m.entries

/-- The map of a list of entries. Of two entries with one name the later counts. -/
def ofList (es : List (Text × Text)) : Attributes :=
  es.foldl (fun m e => m.insert e.1 e.2) empty

end Attributes

end DocComment.Xml
