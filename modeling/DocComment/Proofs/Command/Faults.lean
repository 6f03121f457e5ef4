import DocComment.Proofs.Command.Agreement

/-!
What a run prints, and what it reports when several things are wrong.

* **Faults.** `faults` lists all that is wrong with a run, in the order of its stages: the settings,
  the input, what the input holds. Each stage is looked at whatever is wrong with the others.
* **All or nothing.** A run without faults prints the whole answer to its task and nothing else; any
  other run prints nothing and reports the first of its faults (`run_allOrNothing`).
-/

namespace DocComment.Command

open Json

/-! ### Faults -/

/-- Whether a run fails fast. Where there are no settings, only the switch can say so. -/
def failsFast (e : Environment Id) (i : Invocation) : Bool :=
  match loaded e i with
  | .ok s => s.failFast
  | .error _ => i.choices.failFast.getD false

/-- The comments in a file. -/
def comments? (input : Text) : Option Comments :=
  (Value.read? input).bind Comments.ofJson?

/-- What is wrong with the settings of a run. -/
def settingsFaults (e : Environment Id) (i : Invocation) : List CommandError :=
  match loaded e i with
  | .error error => [.settings error]
  | .ok _ => []

/-- What is wrong with an input for a task: a malformed comment, or, in a batch, that it holds no
comments, or else all malformed ones among them if they count. -/
def contentFaults (failFast : Bool) (input : Text) : Task → List CommandError
  | .parse _ =>
    match Comment.read (some input) with
    | .error error => [.comment error]
    | .ok _ => []
  | .batch _ _ =>
    match comments? input with
    | none => [.json]
    | some comments =>
      if failFast then (Batch.failuresAlone comments.entries).map .failure else []

/-- What is wrong with the input of a run. -/
def inputFaults (e : Environment Id) (i : Invocation) : List CommandError :=
  match (readInput e i.task.file?).run with
  | .error reason => [.input reason]
  | .ok input => contentFaults (failsFast e i) input i.task

/-- All that is wrong with a run, in the order of its stages. -/
def faults (e : Environment Id) (i : Invocation) : List CommandError :=
  settingsFaults e i ++ inputFaults e i

/-! ### Answers -/

/-- Whether a value is what a task makes of its input: the record of the comment, or null if there
is none; or the records of the comments, or null, under their ids. -/
def Task.Answers (input : Text) (v : Value) : Task → Prop
  | .parse _ => ∃ r, Comment.read (some input) = .ok r ∧ Record.optionOfJson? v = some r
  | .batch _ _ =>
    ∃ comments records, comments? input = some comments ∧
      OrderedMap.ofObject? Record.optionOfJson? v = some records ∧
      records.entries = comments.entries.map fun e => (e.1, Comment.alone e.2)

/-- A task that finds nothing wrong with its input answers it. -/
lemma taskOutcome_of_contentFaults_nil {task : Task} {s : Settings} {input : Text}
    (h : contentFaults s.failFast input task = []) :
    ∃ v messages, v.IsSound ∧ task.Answers input v ∧ taskOutcome task s input =
      .ok { exitCode := 0, output := v.document s.layout, messages := messages } := by
  cases task with
  | parse file =>
      rw [contentFaults] at h
      rw [taskOutcome, parseOutcome]
      cases hread : Comment.read (some input) with
      | error error =>
          rw [hread] at h
          cases h
      | ok r =>
          exact ⟨Record.optionToJson r, [], Record.isSound_optionToJson r,
            ⟨r, hread, Record.optionOfJson?_optionToJson r⟩, rfl⟩
  | batch file failFast =>
      rw [contentFaults] at h
      rw [taskOutcome, batchOutcome, ← comments?]
      cases hcomments : comments? input with
      | none =>
          rw [hcomments] at h
          cases h
      | some comments =>
          rw [hcomments] at h
          have hnone : s.failFast = true → Batch.failuresAlone comments.entries = [] := by
            intro hfast
            rw [hfast] at h
            exact List.map_eq_nil_iff.mp h
          obtain ⟨b, hb, hrecords, -⟩ := Batch.exists_run_eq_ok hnone
          refine ⟨b.toJson, report b, OrderedMap.isSound_toObject Record.isSound_optionToJson _,
            ⟨comments, b.records, hcomments,
              OrderedMap.ofObject?_toObject Record.optionOfJson?_optionToJson _, hrecords⟩, ?_⟩
          simp only [hb]

/-- A task reports the first thing that is wrong with its input. -/
lemma taskOutcome_of_contentFaults_cons {task : Task} {s : Settings} {input : Text}
    {error : CommandError} {more : List CommandError}
    (h : contentFaults s.failFast input task = error :: more) :
    taskOutcome task s input = .error error := by
  cases task with
  | parse file =>
      rw [contentFaults] at h
      rw [taskOutcome, parseOutcome]
      cases hread : Comment.read (some input) with
      | ok r =>
          rw [hread] at h
          cases h
      | error e =>
          rw [hread] at h
          cases h
          rfl
  | batch file failFast =>
      rw [contentFaults] at h
      rw [taskOutcome, batchOutcome, ← comments?]
      cases hcomments : comments? input with
      | none =>
          rw [hcomments] at h
          cases h
          rfl
      | some comments =>
          rw [hcomments] at h
          cases hfast : s.failFast with
          | false =>
              rw [hfast] at h
              cases h
          | true =>
              rw [hfast] at h
              obtain ⟨f, fs, hfailures, rfl, -⟩ := List.map_eq_cons_iff.mp h
              have hrun : Batch.run true comments = .error f :=
                Batch.run_eq_error (by rw [hfailures, List.head?_cons])
              simp only [hrun]

/-! ### Runs -/

section

variable {e : Environment Id} {args : List Text} {i : Invocation}

lemma failsFast_of_loaded {s : Settings} (h : loaded e i = .ok s) :
    failsFast e i = s.failFast := by
  rw [failsFast, h]

/-- A run reports the first of its faults. -/
lemma run_of_faults_cons (hargs : readArguments args = some (.run i)) {error : CommandError}
    {more : List CommandError} (h : faults e i = error :: more) :
    (run e args).run = .ofError error := by
  rw [run_eq_stages hargs]
  rw [faults, settingsFaults, inputFaults] at h
  cases hloaded : loaded e i with
  | error settingsError =>
      rw [hloaded] at h
      cases h
      rfl
  | ok s =>
      rw [hloaded, failsFast_of_loaded hloaded] at h
      cases hinput : (readInput e i.task.file?).run with
      | error reason =>
          rw [hinput] at h
          cases h
          rfl
      | ok input =>
          rw [hinput] at h
          show Outcome.ofResult (taskOutcome i.task s input) = _
          rw [taskOutcome_of_contentFaults_cons h]
          rfl

/-- A run without faults prints the answer to its task. -/
lemma run_of_faults_nil (hargs : readArguments args = some (.run i)) (h : faults e i = []) :
    ∃ l input v messages, (readInput e i.task.file?).run = .ok input ∧ v.IsSound ∧
      i.task.Answers input v ∧ (run e args).run =
        { exitCode := 0, output := v.document l, messages := messages } := by
  rw [run_eq_stages hargs]
  rw [faults, settingsFaults, inputFaults, List.append_eq_nil_iff] at h
  obtain ⟨hsettings, hcontent⟩ := h
  cases hloaded : loaded e i with
  | error settingsError =>
      rw [hloaded] at hsettings
      cases hsettings
  | ok s =>
      rw [failsFast_of_loaded hloaded] at hcontent
      cases hinput : (readInput e i.task.file?).run with
      | error reason =>
          rw [hinput] at hcontent
          cases hcontent
      | ok input =>
          rw [hinput] at hcontent
          obtain ⟨v, messages, hsound, hanswers, hrun⟩ := taskOutcome_of_contentFaults_nil hcontent
          refine ⟨s.layout, input, v, messages, rfl, hsound, hanswers, ?_⟩
          show Outcome.ofResult (taskOutcome i.task s input) = _
          rw [hrun]
          rfl

end

/-! ### All or nothing -/

/-- Whether an outcome is a success that prints the answer of a task to an input: one value and a
line break, and nothing else. The value is read back from it. -/
def Outcome.IsComplete (o : Outcome) (task : Task) (input : Text) : Prop :=
  o.exitCode = 0 ∧ ∃ v text, o.output = text ++ ['\n'] ∧ v.StandsAs text ∧
    Value.read? o.output = some v ∧ task.Answers input v

/-- Whether an outcome is a failure that prints nothing. -/
def Outcome.IsFailure (o : Outcome) : Prop :=
  o.exitCode ≠ 0 ∧ o.output = []

lemma isFailure_ofError (error : CommandError) : (Outcome.ofError error).IsFailure :=
  ⟨Nat.one_ne_zero, rfl⟩

/-- A command that fails reports its error and nothing else. -/
lemma messages_ofError (error : CommandError) :
    (Outcome.ofError error).messages = "Error: ".toList ++ error.message ++ ['\n'] :=
  rfl

lemma isFailure_unusable : Outcome.unusable.IsFailure :=
  ⟨Nat.succ_ne_zero 1, rfl⟩

section

variable {e : Environment Id} {args : List Text} {i : Invocation}

/-- A run of a task without faults prints the answer to the task. -/
lemma isComplete_of_faults_nil (hargs : readArguments args = some (.run i))
    (h : faults e i = []) :
    ∃ input, (readInput e i.task.file?).run = .ok input ∧
      (run e args).run.IsComplete i.task input := by
  obtain ⟨l, input, v, messages, hinput, hsound, hanswers, hrun⟩ := run_of_faults_nil hargs h
  refine ⟨input, hinput, ?_⟩
  rw [hrun]
  exact ⟨rfl, v, v.written l 0, rfl, Value.standsAs_written l 0 v hsound,
    Value.read?_document hsound l, hanswers⟩

lemma exitCode_eq_zero_iff (hargs : readArguments args = some (.run i)) :
    (run e args).run.exitCode = 0 ↔ faults e i = [] := by
  cases hfaults : faults e i with
  | nil =>
      obtain ⟨input, -, hcomplete⟩ := isComplete_of_faults_nil hargs hfaults
      exact iff_of_true hcomplete.1 rfl
  | cons error more =>
      rw [run_of_faults_cons hargs hfaults]
      exact iff_of_false (isFailure_ofError error).1 (List.cons_ne_nil _ _)

/-- Nothing is wrong with a batch that does not fail fast once its comments have been found. -/
lemma faults_eq_nil_of_lenient {file : Text} {failFast : Bool} {s : Settings} {input : Text}
    {comments : Comments} (htask : i.task = .batch file failFast) (hloaded : loaded e i = .ok s)
    (hlenient : s.failFast = false) (hinput : (readInput e (some file)).run = .ok input)
    (hcomments : comments? input = some comments) : faults e i = [] := by
  have hsettings : settingsFaults e i = [] := by rw [settingsFaults, hloaded]
  have hcontent : inputFaults e i = [] := by
    rw [inputFaults, htask, Task.file?, hinput, failsFast_of_loaded hloaded, hlenient]
    show contentFaults false input (.batch file failFast) = []
    rw [contentFaults, hcomments]
    rfl
  rw [faults, hsettings, hcontent, List.append_nil]

/-- **All or nothing.** A run that is asked for neither the version nor help either succeeds and
prints exactly one value and a line break, which is the record of the comment or null, or the
object of the records and nulls of all comments; or it fails and prints nothing. It fails with a
complaint about its arguments if they cannot be used, whatever else is wrong; and otherwise just
if something is wrong with its settings, its input or what the input holds, and then it reports
the first of these: it writes the word Error, a colon and the message of this one, and nothing
else. Without failing fast, a batch succeeds once its comments have been found, however malformed
they are. -/
theorem run_allOrNothing (e : Environment Id) {args : List Text}
    (hversion : readArguments args ≠ some .version) (hhelp : readArguments args ≠ some .help) :
    ((∃ i input, readArguments args = some (.run i) ∧
        (readInput e i.task.file?).run = .ok input ∧ (run e args).run.IsComplete i.task input) ∨
      (run e args).run.IsFailure) ∧
    (readArguments args = none → (run e args).run = .unusable) ∧
    ∀ i, readArguments args = some (.run i) →
      ((run e args).run.exitCode = 0 ↔ faults e i = []) ∧
      (∀ error, (faults e i).head? = some error →
        (run e args).run = .ofError error ∧
        (run e args).run.messages = "Error: ".toList ++ error.message ++ ['\n']) ∧
      (∀ file failFast s input comments, i.task = .batch file failFast →
        loaded e i = .ok s → s.failFast = false →
        (readInput e (some file)).run = .ok input → comments? input = some comments →
        (run e args).run.exitCode = 0) := by
  have hunusable : readArguments args = none → (run e args).run = .unusable := by
    intro hargs
    rw [run, hargs]
    rfl
  refine ⟨?_, hunusable, fun i hargs => ⟨exitCode_eq_zero_iff hargs, ?_, ?_⟩⟩
  · cases hargs : readArguments args with
    | none =>
        rw [hunusable hargs]
        exact .inr isFailure_unusable
    | some request =>
        cases request with
        | version => exact absurd hargs hversion
        | help => exact absurd hargs hhelp
        | run i =>
            cases hfaults : faults e i with
            | nil =>
                obtain ⟨input, hinput, hcomplete⟩ := isComplete_of_faults_nil hargs hfaults
                exact .inl ⟨i, input, rfl, hinput, hcomplete⟩
            | cons error more =>
                rw [run_of_faults_cons hargs hfaults]
                exact .inr (isFailure_ofError error)
  · intro error herror
    obtain ⟨more, hfaults⟩ := List.head?_eq_some_iff.mp herror
    have hrun := run_of_faults_cons hargs hfaults
    exact ⟨hrun, by rw [hrun, messages_ofError]⟩
  · intro file failFast s input comments htask hloaded hlenient hinput hcomments
    exact (exitCode_eq_zero_iff hargs).mpr
      (faults_eq_nil_of_lenient htask hloaded hlenient hinput hcomments)

/-- A batch whose settings file and whose comments are both missing complains about the settings,
and one with a malformed comment succeeds. -/
theorem run_allOrNothing_pair :
    (run pairEnvironment ["batch".toList, "none.json".toList, "-cnone.toml".toList]).run =
        .ofError (.settings (.notFound "none.toml".toList)) ∧
      (run pairEnvironment ["batch".toList, "none.json".toList, "-cnone.toml".toList]).run.messages =
        "Error: Configuration file not found: none.toml\n".toList ∧
      (run pairEnvironment ["batch".toList, "docs.json".toList]).run.exitCode = 0 := by
  have hmissing : readArguments ["batch".toList, "none.json".toList, "-cnone.toml".toList] =
      some (.run { task := .batch "none.json".toList false,
                   config := some "none.toml".toList }) := by decide
  obtain ⟨-, -, hfails⟩ :=
    run_allOrNothing pairEnvironment (by rw [hmissing]; decide) (by rw [hmissing]; decide)
  obtain ⟨hreported, hmessages⟩ :=
    (hfails _ hmissing).2.1 (.settings (.notFound "none.toml".toList)) (by decide +kernel)
  have hargs : readArguments ["batch".toList, "docs.json".toList] =
      some (.run { task := .batch "docs.json".toList false }) := by decide
  have hinput : (readInput pairEnvironment (some "docs.json".toList)).run =
      .ok (pairComments.toJson.document .compact) := by decide +kernel
  have hcomments : comments? (pairComments.toJson.document .compact) =
      some (.ofList (Comments.present pairComments.entries)) :=
    Comments.ofJson?_of_spelledBy (Comments.spelledBy_document pairComments .compact)
  obtain ⟨-, -, hsucceeds⟩ :=
    run_allOrNothing pairEnvironment (by rw [hargs]; decide) (by rw [hargs]; decide)
  exact ⟨hreported, hmessages,
    (hsucceeds _ hargs).2.2 _ false {} _ _ rfl rfl rfl hinput hcomments⟩

end

end DocComment.Command
