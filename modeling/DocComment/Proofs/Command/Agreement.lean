import DocComment.Command.Run
import DocComment.Proofs.Batch
import DocComment.Proofs.Json.Compact
import DocComment.Proofs.Record.Json
import DocComment.Proofs.Settings

/-!
A batch and the runs on its comments alone.

* **Files of comments.** `Comments.SpelledBy` says of a text that it is an object with given
  comments under their ids, however it is laid out and escaped.
* **One comment.** A run on one comment prints its record, or complains about it
  (`Command.IsAlone.gives`).
* **A batch** under the same settings prints the object of what these runs print and passes on
  their complaints, in the order of the file; if it fails fast, it fails with the first complaint
  (`Command.run_batch_eq_alone`).
-/

namespace DocComment

open Json

/-! ### Files of comments -/

/-- Comments none of which is missing. -/
def Comments.present (entries : List (Text × Text)) : List (Text × Option Text) :=
  entries.map fun e => (e.1, some e.2)

/-- Whether a file is an object with the given comments under their ids. -/
def Comments.SpelledBy (entries : List (Text × Text)) (file : Text) : Prop :=
  ∃ members, Spelling (Value.object members).tokens file ∧
    List.Forall₂ (fun m entry => m.1.text? = some entry.1 ∧ m.2.text? = some entry.2)
      members entries

lemma commentOfJson?_of_text? {v : Value} {t : Text} (h : v.text? = some t) :
    commentOfJson? v = some (some t) := by
  cases v with
  | string units =>
      show (Value.text? (.string units)).map some = _
      rw [h, Option.map_some]
  | null => cases h
  | bool b => cases h
  | number w => cases h
  | array items => cases h
  | object members => cases h

/-- The comments are read from each file that spells them. -/
lemma Comments.ofJson?_of_spelledBy {entries : List (Text × Text)} {file : Text}
    (h : SpelledBy entries file) :
    (Value.read? file).bind ofJson? = some (.ofList (present entries)) := by
  obtain ⟨members, hspelling, htexts⟩ := h
  have hread : List.Forall₂ (fun m e => m.1.text? = some e.1 ∧ commentOfJson? m.2 = some e.2)
      members (present entries) := by
    rw [present, List.forall₂_map_right_iff]
    exact htexts.imp fun _ _ hentry => ⟨hentry.1, commentOfJson?_of_text? hentry.2⟩
  obtain ⟨named, hmembers, hcomments⟩ := Value.exists_members?_eq hread
  rw [Value.read?_of_spelling hspelling, Option.bind_some, ofJson?, hmembers]
  show (named.mapM fun m => (commentOfJson? m.2).map fun c => (m.1, c)).bind
    (fun entries => some (OrderedMap.ofList entries)) = _
  rw [hcomments, Option.bind_some]

/-- A map of comments, as it is written in any layout, holds these comments. -/
lemma Comments.spelledBy_document (m : OrderedMap Text) (l : Layout) :
    SpelledBy m.entries (m.toJson.document l) := by
  refine ⟨_, Value.spelling_document (OrderedMap.isSound_toObject Value.isSound_ofText m) l, ?_⟩
  rw [List.forall₂_map_left_iff, List.forall₂_same]
  exact fun e _ => ⟨Units.text?_ofText e.1, Units.text?_ofText e.2⟩

namespace Command

open Comments (present)

/-! ### Runs -/

/-- The outcome of a command that may fail. -/
def Outcome.ofResult : Except CommandError Outcome → Outcome
  | .error error => .ofError error
  | .ok outcome => outcome

/-- The settings of a run, with its choices over them. -/
def loaded (e : Environment Id) (i : Invocation) : Except SettingsError Settings :=
  (Settings.load e i.config (some i.choices)).run

/-- A run goes through its stages and stops at the first that fails. -/
lemma run_eq_stages {e : Environment Id} {args : List Text} {i : Invocation}
    (hargs : readArguments args = some (.run i)) :
    (run e args).run =
      match loaded e i with
      | .error error => .ofError (.settings error)
      | .ok s =>
        match (readInput e i.task.file?).run with
        | .error reason => .ofError (.input reason)
        | .ok input => .ofResult (taskOutcome i.task s input) := by
  rw [run, hargs]
  show (invoke e i).run = _
  rw [invoke, Id.run_bind, ← loaded]
  cases loaded e i with
  | error error => rfl
  | ok s =>
      show (readInput e i.task.file? >>= _).run = _
      rw [Id.run_bind]
      cases (readInput e i.task.file?).run with
      | error reason => rfl
      | ok input =>
          show Id.run (match taskOutcome i.task s input with
            | .error error => _
            | .ok outcome => _) = Outcome.ofResult _
          cases taskOutcome i.task s input with
          | error error => rfl
          | ok outcome => rfl

/-- A run does its task on its input, under the settings with its choices. -/
lemma run_eq {e : Environment Id} {args : List Text} {i : Invocation} {s : Settings} {input : Text}
    (hargs : readArguments args = some (.run i))
    (hsettings : (Settings.base e i.config).run = .ok s)
    (hinput : (readInput e i.task.file?).run = .ok input) :
    (run e args).run = .ofResult (taskOutcome i.task (s.choose i.choices) input) := by
  rw [run_eq_stages hargs, loaded, Settings.run_load, hsettings, hinput]
  rfl

/-- The outcomes of runs on one comment alone, without indented output and under given settings:
whatever else there is around, and wherever the comment comes from. -/
inductive IsAlone (s : Settings) (comment : Text) : Outcome → Prop where
  | intro {e : Environment Id} {args : List Text} {i : Invocation} {file : Option Text}
      (hargs : readArguments args = some (.run i)) (htask : i.task = .parse file)
      (hpretty : i.pretty = false) (hsettings : (Settings.base e i.config).run = .ok s)
      (hinput : (readInput e file).run = .ok comment) : IsAlone s comment (run e args).run

/-- What a run on one comment comes to: it prints a text, or it fails with a complaint about the
comment, and then the text is null. -/
inductive Gives : Outcome → Text → Option Text → Prop where
  | printed (shown : Text) : Gives { exitCode := 0, output := messageLine shown } shown none
  | failed (complaint : Text) :
      Gives { exitCode := 1, messages :=
        messageLine ("Error: malformed documentation comment: ".toList ++ complaint) }
        "null".toList (some complaint)

/-- What is said about a comment under its id. -/
structure Remark where
  id : Text
  /-- The record as it is printed. -/
  shown : Text
  /-- What is wrong with the comment, if it is malformed. -/
  complaint : Option Text

/-- What is said about a comment that is read alone. -/
def Remark.alone (entry : Text × Text) : Remark where
  id := entry.1
  shown := (Record.optionToJson (Comment.alone (some entry.2))).written .compact 0
  complaint := (Failure.of? entry.1 (some entry.2)).map fun f => f.error.message

/-- Without the switch for indented output, compact output stays compact. -/
lemma layout_choose {s : Settings} {i : Invocation} (hcompact : s.pretty = false)
    (hpretty : i.pretty = false) : (s.choose i.choices).layout = .compact := by
  have hswitch : (s.choose i.choices).pretty = false := by
    simp [Settings.choose, Invocation.choices, hpretty, hcompact]
  rw [Settings.layout, hswitch]
  rfl

/-- A run on one comment says what is said about it alone. -/
lemma IsAlone.gives {s : Settings} {entry : Text × Text} {o : Outcome} (hcompact : s.pretty = false)
    (h : IsAlone s entry.2 o) :
    Gives o (Remark.alone entry).shown (Remark.alone entry).complaint := by
  obtain ⟨hargs, htask, hpretty, hsettings, hinput⟩ := h
  rename_i e args i file
  have hfile : (readInput e i.task.file?).run = .ok entry.2 := by rw [htask]; exact hinput
  rw [run_eq hargs hsettings hfile, htask, taskOutcome, parseOutcome,
    layout_choose hcompact hpretty, Remark.alone, Comment.alone, Failure.of?]
  cases Comment.read (some entry.2) with
  | ok r => exact .printed _
  | error error => exact .failed error.message

/-! ### A batch -/

/-- What is complained about, under the ids. -/
def complaints (remarks : List Remark) : List (Text × Text) :=
  remarks.filterMap fun r => r.complaint.map fun complaint => (r.id, complaint)

/-- The failures of comments alone are what is complained about. -/
lemma complaints_alone (entries : List (Text × Text)) :
    complaints (entries.map Remark.alone) =
      (Batch.failuresAlone (present entries)).map
        fun f => (f.id, f.error.message) := by
  rw [complaints, Batch.failuresAlone, present, List.filterMap_map, List.filterMap_map,
    List.map_filterMap]
  refine List.filterMap_congr fun entry _ => ?_
  show (Option.map _ _).map _ = Option.map _ _
  rw [Option.map_map]
  refine Option.map_congr fun f hf => ?_
  rw [Function.comp_apply, (Failure.of?_eq_some_iff.mp hf).1]
  rfl

/-- The line about a comment that is passed over. -/
def complaintLine (c : Text × Text) : Text :=
  messageLine ("Skipped ".toList ++ c.1 ++ ": ".toList ++ c.2)

/-- The line about the number of comments, and the number of complaints if there are any. -/
def tallyLine (comments : ℕ) : ℕ → Text
  | 0 => messageLine ("Parsed ".toList ++ Text.decimal comments ++ " comments".toList)
  | complaints + 1 =>
    messageLine ("Parsed ".toList ++ Text.decimal comments ++ " comments, ".toList ++
      Text.decimal (complaints + 1) ++ " malformed".toList)

/-- The outcome of a batch that passes on what is said about its comments. -/
def Outcome.ofRemarks (remarks : List Remark) : Outcome where
  exitCode := 0
  output := messageLine (Value.objectText (remarks.map fun r => (r.id, r.shown)))
  messages := (complaints remarks).flatMap complaintLine ++
    tallyLine remarks.length (complaints remarks).length

/-- The outcome of a batch that stops at a complaint. -/
def Outcome.ofComplaint (c : Text × Text) : Outcome where
  exitCode := 1
  messages := messageLine ("Error: malformed documentation comment ".toList ++
    Xml.accented c.1 ++ ": ".toList ++ c.2)

/-- The count at the end of a report is this line. -/
lemma countLine_eq_tallyLine (comments malformed : ℕ) :
    countLine comments malformed = tallyLine comments malformed := by
  cases malformed with
  | zero => rfl
  | succ n =>
      have hcomma : " comments, ".toList = " comments".toList ++ ", ".toList := rfl
      rw [countLine, if_neg n.succ_ne_zero, tallyLine, hcomma, ← List.append_assoc]

/-- What a batch prints and reports is what is said about its comments. -/
lemma ofRemarks_eq {b : Batch} {entries : List (Text × Text)}
    (hrecords : b.records.entries =
      Batch.recordsAlone (present entries))
    (hfailures : b.failures = Batch.failuresAlone (present entries)) :
    { exitCode := 0, output := b.toJson.document .compact, messages := report b } =
      Outcome.ofRemarks (entries.map Remark.alone) := by
  have houtput : b.toJson.document .compact = messageLine (Value.objectText
      ((entries.map Remark.alone).map fun r => (r.id, r.shown))) := by
    rw [Value.document, Batch.toJson, Value.written_object_compact, hrecords, Batch.recordsAlone,
      present, List.map_map, List.map_map, List.map_map]
    rfl
  have hreport : report b = (complaints (entries.map Remark.alone)).flatMap complaintLine ++
      tallyLine (entries.map Remark.alone).length
        (complaints (entries.map Remark.alone)).length := by
    rw [report, countLine_eq_tallyLine, OrderedMap.size, hrecords, hfailures, complaints_alone, List.flatMap_map,
      Batch.recordsAlone, present, List.length_map, List.length_map, List.length_map,
      List.length_map]
    rfl
  rw [Outcome.ofRemarks, houtput, hreport]

/-- **The outcome of a batch**: all remarks about its comments, or the first complaint if it fails
fast and there is one. -/
lemma ofResult_batchOutcome {s : Settings} {entries : List (Text × Text)} {file : Text}
    (hspelled : Comments.SpelledBy entries file) (hids : (entries.map Prod.fst).Nodup)
    (hlayout : s.layout = .compact) :
    Outcome.ofResult (batchOutcome s file) =
      if s.failFast then
        ((complaints (entries.map Remark.alone)).head?.map Outcome.ofComplaint).getD
          (Outcome.ofRemarks (entries.map Remark.alone))
      else Outcome.ofRemarks (entries.map Remark.alone) := by
  have hentries : (OrderedMap.ofList (present entries)).entries = present entries :=
    OrderedMap.entries_ofList (by rwa [present, List.map_map])
  have hremarks (failFast : Bool)
      (h : failFast = true → Batch.failuresAlone (present entries) = []) :
      ∃ b, Batch.run failFast (.ofList (present entries)) = .ok b ∧
        { exitCode := 0, output := b.toJson.document .compact, messages := report b } =
          Outcome.ofRemarks (entries.map Remark.alone) := by
    rw [← hentries] at h
    obtain ⟨b, hb, hrecords, hfailures⟩ := Batch.exists_run_eq_ok h
    rw [hentries] at hrecords hfailures
    exact ⟨b, hb, ofRemarks_eq hrecords hfailures⟩
  rw [batchOutcome, Comments.ofJson?_of_spelledBy hspelled, hlayout, complaints_alone,
    List.head?_map]
  cases s.failFast with
  | false =>
      obtain ⟨b, hb, hshown⟩ := hremarks false fun h => absurd h Bool.false_ne_true
      simp only [hb]
      exact hshown
  | true =>
      cases hfailures : Batch.failuresAlone (present entries) with
      | nil =>
          obtain ⟨b, hb, hshown⟩ := hremarks true fun _ => hfailures
          simp only [hb]
          exact hshown
      | cons f fs =>
          have hb : Batch.run true (.ofList (present entries)) = .error f :=
            Batch.run_eq_error (by rw [hentries, hfailures, List.head?_cons])
          simp only [hb]
          rfl

/-- Something is complained about just if a run on one of the comments fails. -/
lemma exists_exitCode_ne_zero_iff {alone : List Outcome} {remarks : List Remark}
    (h : List.Forall₂ (fun o r => Gives o r.shown r.complaint) alone remarks) :
    (∃ o ∈ alone, o.exitCode ≠ 0) ↔ complaints remarks ≠ [] := by
  induction h with
  | nil => simp [complaints]
  | @cons o r alone remarks hgives _ ih =>
      obtain ⟨id, shown, complaint⟩ := r
      rw [List.exists_mem_cons_iff, ih]
      cases hgives with
      | printed => simp [complaints]
      | failed complaint => simp [complaints]

/-- **A batch agrees with the runs on its comments alone.** Let a file hold comments under distinct
ids, and let there be a run on each comment under the same settings, none of them with indented
output. Each of these runs prints a text, or fails with a complaint about its comment. Unless the
batch fails fast, it succeeds: it prints the object of these texts, with null where there is a
complaint, and passes on the complaints, in the order of the file, and how many comments and
complaints there were. If it fails fast, it fails just if one of the runs fails, and then with the
first complaint alone. -/
theorem run_batch_eq_alone {e : Environment Id} {args : List Text} {i : Invocation} {file : Text}
    {failFast : Bool} {s : Settings} {input : Text} {entries : List (Text × Text)}
    {alone : List Outcome} (hargs : readArguments args = some (.run i))
    (htask : i.task = .batch file failFast) (hpretty : i.pretty = false)
    (hsettings : (Settings.base e i.config).run = .ok s) (hcompact : s.pretty = false)
    (hinput : (readInput e (some file)).run = .ok input)
    (hspelled : Comments.SpelledBy entries input) (hids : (entries.map Prod.fst).Nodup)
    (halone : List.Forall₂ (fun entry o => IsAlone s entry.2 o) entries alone) :
    ∃ remarks : List Remark, remarks.map Remark.id = entries.map Prod.fst ∧
      List.Forall₂ (fun o r => Gives o r.shown r.complaint) alone remarks ∧
      (failFast = false → s.failFast = false → (run e args).run = .ofRemarks remarks) ∧
      (failFast = true ∨ s.failFast = true →
        ((run e args).run.exitCode ≠ 0 ↔ ∃ o ∈ alone, o.exitCode ≠ 0) ∧
        (complaints remarks = [] → (run e args).run = .ofRemarks remarks) ∧
        ∀ c, (complaints remarks).head? = some c → (run e args).run = .ofComplaint c) := by
  have hgives : List.Forall₂ (fun o r => Gives o r.shown r.complaint) alone
      (entries.map Remark.alone) := by
    rw [List.forall₂_map_right_iff]
    exact (halone.imp fun _ _ h => h.gives hcompact).flip
  have hfile : (readInput e i.task.file?).run = .ok input := by rw [htask]; exact hinput
  have hswitch : (s.choose i.choices).failFast = (failFast || s.failFast) := by
    cases failFast with
    | false => simp [Settings.choose, Invocation.choices, htask]
    | true => simp [Settings.choose, Invocation.choices, htask]
  have hrun := run_eq hargs hsettings hfile
  rw [htask, taskOutcome, ofResult_batchOutcome hspelled hids (layout_choose hcompact hpretty),
    hswitch] at hrun
  refine ⟨entries.map Remark.alone, by rw [List.map_map]; rfl, hgives, ?_, fun hfast => ?_⟩
  · rintro rfl hs
    rw [hrun, hs]
    rfl
  · have hfast : (failFast || s.failFast) = true := Bool.or_eq_true_iff.mpr hfast
    rw [hfast, if_pos rfl] at hrun
    rw [exists_exitCode_ne_zero_iff hgives, hrun]
    cases hcomplaints : complaints (entries.map Remark.alone) with
    | nil => exact ⟨by simp [Outcome.ofRemarks], fun _ => rfl, nofun⟩
    | cons c cs =>
        refine ⟨by simp [Outcome.ofComplaint], nofun, fun c' hc' => ?_⟩
        rw [← Option.some.inj hc']
        rfl

/-- A comment and one that is malformed. -/
def pairComments : OrderedMap Text :=
  .ofList [("a".toList, "<doc/>".toList), ("b".toList, "<doc>".toList)]

/-- Surroundings with a file of these comments. -/
def pairEnvironment : Environment Id :=
  (FileTree.directory
    [("docs.json".toList, .file (pairComments.toJson.document .compact))]).environment [] []

/-- Surroundings with one comment on the input stream. -/
def streamEnvironment (comment : Text) : Environment Id :=
  (FileTree.directory []).environment [] comment

lemma isAlone_streamEnvironment (comment : Text) :
    IsAlone {} comment (run (streamEnvironment comment) ["parse".toList]).run := by
  have hargs : readArguments ["parse".toList] = some (.run { task := .parse none }) := by decide
  exact .intro hargs rfl rfl rfl rfl

/-- The pair in a batch, with the runs on each of the two. -/
theorem run_batch_eq_alone_pair :
    ∃ remarks : List Remark,
      List.Forall₂ (fun o r => Gives o r.shown r.complaint)
        [(run (streamEnvironment "<doc/>".toList) ["parse".toList]).run,
          (run (streamEnvironment "<doc>".toList) ["parse".toList]).run] remarks ∧
      (run pairEnvironment ["batch".toList, "docs.json".toList]).run = .ofRemarks remarks := by
  have hargs : readArguments ["batch".toList, "docs.json".toList] =
      some (.run { task := .batch "docs.json".toList false }) := by decide
  have hinput : (readInput pairEnvironment (some "docs.json".toList)).run =
      .ok (pairComments.toJson.document .compact) := by decide +kernel
  have halone : List.Forall₂ (fun (entry : Text × Text) o => IsAlone {} entry.2 o)
      pairComments.entries
      [(run (streamEnvironment "<doc/>".toList) ["parse".toList]).run,
        (run (streamEnvironment "<doc>".toList) ["parse".toList]).run] :=
    .cons (isAlone_streamEnvironment _) (.cons (isAlone_streamEnvironment _) .nil)
  obtain ⟨remarks, -, hgives, hlenient, -⟩ := run_batch_eq_alone hargs rfl rfl rfl rfl hinput
    (Comments.spelledBy_document pairComments .compact) pairComments.nodup halone
  exact ⟨remarks, hgives, hlenient rfl rfl⟩

example : (run pairEnvironment ["batch".toList, "docs.json".toList]).run =
    { exitCode := 0, output := "\x7b\"a\":\x7b\x7d,\"b\":null\x7d\n".toList,
      messages := ("Skipped b: unexpected end of input inside \x60<doc>\x60\n" ++
        "Parsed 2 comments, 1 malformed\n").toList } := by
  decide +kernel

end Command

end DocComment
