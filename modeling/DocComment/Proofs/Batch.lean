import DocComment.Batch
import DocComment.Proofs.OrderedMap

/-!
What becomes of a batch, in terms of what becomes of each comment by itself.

* **One comment** (`take_lenient`, `take_failFast`): its record is put under its id, and if it is
  malformed, it leaves no record and is listed, or stops the batch.
* **All comments** (`takeAll_lenient`, `takeAll_failFast`), by induction on the comments with the
  batch before them general: the records are those of the comments alone, the failures those of
  the malformed ones, and a batch that fails fast stops at the first of these.
* **The batch** (`run_eq_alone`): since the ids are distinct, its records have just the ids of
  the comments, in their order. What a run with a given switch comes to is also said by itself
  (`exists_run_eq_ok`, `run_eq_error`).
-/

namespace DocComment

/-- The record of a comment that is read alone. A malformed comment has none. -/
def Comment.alone (comment : Option Text) : Option Record :=
  (read comment).toOption.join

/-- What a batch has to say about a comment that is malformed. -/
def Failure.of? (id : Text) (comment : Option Text) : Option Failure :=
  match Comment.read comment with
  | .ok _ => none
  | .error e => some ⟨id, e⟩

lemma Failure.of?_eq_some_iff {id : Text} {comment : Option Text} {f : Failure} :
    of? id comment = some f ↔ f.id = id ∧ Comment.read comment = .error f.error := by
  obtain ⟨fid, e⟩ := f
  rw [of?]
  cases Comment.read comment with
  | ok r => simp
  | error e' => simp [eq_comm]

lemma Failure.of?_eq_none_iff {id : Text} {comment : Option Text} :
    of? id comment = none ↔ ∃ r, Comment.read comment = .ok r := by
  rw [of?]
  cases Comment.read comment with
  | ok r => simp
  | error e => simp

namespace Batch

/-! ### The records and the failures of comments -/

/-- The records of comments that are read alone, under their ids. -/
def recordsAlone (entries : List (Text × Option Text)) : List (Text × Option Record) :=
  entries.map fun e => (e.1, Comment.alone e.2)

/-- What is wrong with the malformed ones among comments. -/
def failuresAlone (entries : List (Text × Option Text)) : List Failure :=
  entries.filterMap fun e => Failure.of? e.1 e.2

lemma map_fst_recordsAlone (entries : List (Text × Option Text)) :
    (recordsAlone entries).map Prod.fst = entries.map Prod.fst := by
  rw [recordsAlone, List.map_map]
  rfl

/-- The first failure is that of the first malformed comment. -/
lemma head?_failuresAlone_eq_some_iff {entries : List (Text × Option Text)} {f : Failure} :
    (failuresAlone entries).head? = some f ↔
      ∃ before comment after, entries = before ++ (f.id, comment) :: after ∧
        (∀ e ∈ before, ∃ r, Comment.read e.2 = .ok r) ∧
          Comment.read comment = .error f.error := by
  rw [failuresAlone, List.head?_filterMap, List.findSome?_eq_some_iff]
  constructor
  · rintro ⟨before, ⟨id, comment⟩, after, rfl, hf, hbefore⟩
    obtain ⟨rfl, herror⟩ := Failure.of?_eq_some_iff.mp hf
    exact ⟨before, comment, after, rfl,
      fun e he => Failure.of?_eq_none_iff.mp (hbefore e he), herror⟩
  · rintro ⟨before, comment, after, rfl, hbefore, herror⟩
    exact ⟨before, (f.id, comment), after, rfl, Failure.of?_eq_some_iff.mpr ⟨rfl, herror⟩,
      fun e he => Failure.of?_eq_none_iff.mpr (hbefore e he)⟩

lemma failuresAlone_eq_nil_iff {entries : List (Text × Option Text)} :
    failuresAlone entries = [] ↔ ∀ e ∈ entries, ∃ r, Comment.read e.2 = .ok r := by
  simp only [failuresAlone, List.filterMap_eq_nil_iff, Failure.of?_eq_none_iff]

/-! ### One comment -/

/-- A batch that does not fail fast takes in every comment. -/
lemma take_lenient (b : Batch) (id : Text) (comment : Option Text) :
    b.take false id comment =
      .ok { records := b.records.insert id (Comment.alone comment),
            failures := b.failures ++ (Failure.of? id comment).toList } := by
  rw [take, Comment.alone, Failure.of?]
  cases Comment.read comment with
  | ok r => simp [Except.toOption]
  | error e => simp [Except.toOption]

/-- A batch that fails fast is stopped by a malformed comment and by nothing else. -/
lemma take_failFast (b : Batch) (id : Text) (comment : Option Text) :
    b.take true id comment =
      match Failure.of? id comment with
      | some f => .error f
      | none => b.take false id comment := by
  rw [take, take, Failure.of?]
  cases Comment.read comment with
  | ok r => rfl
  | error e => rfl

/-! ### All comments -/

/-- A batch that does not fail fast takes in all comments, each as if it were alone. -/
lemma takeAll_lenient (b : Batch) (entries : List (Text × Option Text)) :
    b.takeAll false entries =
      .ok { records := b.records.insertAll (recordsAlone entries),
            failures := b.failures ++ failuresAlone entries } := by
  induction entries generalizing b with
  | nil => simp [takeAll, recordsAlone, failuresAlone]
  | cons e rest ih =>
      obtain ⟨id, comment⟩ := e
      have hfailures : failuresAlone ((id, comment) :: rest) =
          (Failure.of? id comment).toList ++ failuresAlone rest := by
        rw [failuresAlone, List.filterMap_cons]
        cases Failure.of? id comment <;> rfl
      rw [takeAll, take_lenient]
      simp only [ih, hfailures, List.append_assoc]
      rfl

/-- A batch that fails fast stops at the first failure and is like any other if there is none. -/
lemma takeAll_failFast (b : Batch) (entries : List (Text × Option Text)) :
    b.takeAll true entries =
      match (failuresAlone entries).head? with
      | some f => .error f
      | none => b.takeAll false entries := by
  induction entries generalizing b with
  | nil => rfl
  | cons e rest ih =>
      obtain ⟨id, comment⟩ := e
      rw [takeAll, take_failFast, failuresAlone, List.filterMap_cons]
      cases Failure.of? id comment with
      | some f => rfl
      | none =>
          rw [takeAll, take_lenient]
          exact ih _

/-! ### The batch -/

/-- A batch succeeds, unless it fails fast and one of the comments is malformed. Its records and
failures are those of the comments alone. -/
lemma exists_run_eq_ok {failFast : Bool} {comments : Comments}
    (h : failFast = true → failuresAlone comments.entries = []) :
    ∃ b, run failFast comments = .ok b ∧ b.records.entries = recordsAlone comments.entries ∧
      b.failures = failuresAlone comments.entries := by
  have hlenient := takeAll_lenient {} comments.entries
  refine ⟨⟨.insertAll .empty (recordsAlone comments.entries), failuresAlone comments.entries⟩,
    ?_, ?_, rfl⟩
  · cases failFast with
    | false => exact hlenient
    | true =>
        have hfast := takeAll_failFast {} comments.entries
        rw [h rfl] at hfast
        exact hfast.trans hlenient
  · refine OrderedMap.entries_insertAll _ ?_
    rw [OrderedMap.empty, List.nil_append, map_fst_recordsAlone]
    exact comments.nodup

/-- A batch that fails fast fails with the first failure. -/
lemma run_eq_error {comments : Comments} {f : Failure}
    (h : (failuresAlone comments.entries).head? = some f) : run true comments = .error f := by
  rw [run, takeAll_failFast, h]

/-- **A batch keeps its comments apart.** Unless it fails fast, it succeeds: its records have
just the ids of the comments in their order, each with the record of that comment read alone,
and its failures are those of the malformed comments, in order. If it fails fast, it fails
exactly when there is a malformed comment, with the id and the error of the first; it has the
same result as otherwise if there is none. -/
theorem run_eq_alone (comments : Comments) :
    (∃ b, run false comments = .ok b ∧
        b.records.entries = comments.entries.map (fun e => (e.1, Comment.alone e.2)) ∧
        b.failures = comments.entries.filterMap (fun e => Failure.of? e.1 e.2) ∧
        (run true comments = .ok b ↔
          ∀ e ∈ comments.entries, ∃ r, Comment.read e.2 = .ok r)) ∧
      ((∃ f, run true comments = .error f) ↔
        ∃ e ∈ comments.entries, ∃ error, Comment.read e.2 = .error error) ∧
      ∀ f, run true comments = .error f ↔
        ∃ before comment after, comments.entries = before ++ (f.id, comment) :: after ∧
          (∀ e ∈ before, ∃ r, Comment.read e.2 = .ok r) ∧
            Comment.read comment = .error f.error := by
  have hlenient := takeAll_lenient {} comments.entries
  have hfast := takeAll_failFast {} comments.entries
  rw [hlenient] at hfast
  have hrecords : ((OrderedMap.empty : OrderedMap (Option Record)).insertAll
      (recordsAlone comments.entries)).entries = recordsAlone comments.entries := by
    refine OrderedMap.entries_insertAll _ ?_
    rw [OrderedMap.empty, List.nil_append, map_fst_recordsAlone]
    exact comments.nodup
  have herror : ∀ f, run true comments = .error f ↔
      (failuresAlone comments.entries).head? = some f := by
    intro f
    rw [run, hfast]
    cases (failuresAlone comments.entries).head? <;> simp
  refine ⟨⟨_, hlenient, hrecords, List.nil_append _, ?_⟩, ?_, fun f => ?_⟩
  · rw [run, hfast, ← failuresAlone_eq_nil_iff]
    cases failuresAlone comments.entries <;> simp
  · have hmalformed : (∃ e ∈ comments.entries, ∃ error, Comment.read e.2 = .error error) ↔
        ¬ failuresAlone comments.entries = [] := by
      rw [failuresAlone_eq_nil_iff, not_forall]
      refine exists_congr fun e => ?_
      cases Comment.read e.2 <;> simp
    rw [hmalformed]
    simp only [herror]
    cases failuresAlone comments.entries <;> simp
  · rw [herror, head?_failuresAlone_eq_some_iff]

end Batch

end DocComment
