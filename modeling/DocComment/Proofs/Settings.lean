import DocComment.FileTree
import DocComment.Settings
import Mathlib.Data.List.Basic

/-!
Where the settings of a run come from.

* **The chosen file.** It is the one that is named, or else the first that is present among the
  candidates in the current directory and those around it (`Settings.chosen?`,
  `Settings.discover_eq`).
* **What a document states.** Each setting is the value of a field of a group, if the document has
  one, or its default (`Settings.ofTable?_eq`).
* **Layers.** Choices go over what the chosen file states, and this over the defaults
  (`Settings.load_layers`). Only the switches can be chosen, and what is chosen never decides
  whether the settings can be loaded.
-/

namespace DocComment.Settings

/-! ### What a document states -/

/-- The value that a document states for a field of a group with fields of given names. -/
def stated? (t : Toml.Table) (group : String) (names : List String) (name : String) :
    Option Toml.Value :=
  (t.lookup group.toList).bind fun v =>
    (fields? names v).bind fun fields => fields.lookup name.toList

/-- Whether a document asks for indented output. -/
def statedPretty? (t : Toml.Table) : Option Bool :=
  (stated? t "output" ["pretty", "indent"] "pretty").bind switch?

/-- The indentation that a document states. -/
def statedIndent? (t : Toml.Table) : Option Nat :=
  (stated? t "output" ["pretty", "indent"] "indent").bind count?

/-- Whether a document asks to fail fast. -/
def statedFailFast? (t : Toml.Table) : Option Bool :=
  (stated? t "batch" ["fail_fast"] "fail_fast").bind switch?

/-- A field that can be read is what is stated for it, or its default. -/
lemma eq_of_field? {α : Type} {fields : Toml.Table} {name : String} {default value : α}
    {read : Toml.Value → Option α} (h : field? fields name default read = some value) :
    value = ((fields.lookup name.toList).bind read).getD default := by
  rw [field?] at h
  cases hlookup : fields.lookup name.toList with
  | none =>
      rw [hlookup] at h
      exact (Option.some.inj h).symm
  | some v =>
      rw [hlookup] at h
      replace h : read v = some value := h
      rw [Option.bind_some, h, Option.getD_some]

/-- The fields of a group that can be read are those that are stated. -/
lemma lookup_eq_stated? {t fields : Toml.Table} {group : String} {names : List String}
    (h : field? t group [] (group? names) = some fields) (name : String) :
    fields.lookup name.toList = stated? t group names name := by
  rw [field?] at h
  rw [stated?]
  cases hlookup : t.lookup group.toList with
  | none =>
      rw [hlookup] at h
      rw [← Option.some.inj h]
      rfl
  | some v =>
      rw [hlookup] at h
      rw [Option.bind_some, (Option.filter_eq_some_iff.mp h).1, Option.bind_some]

/-- The settings in a document are what it states, and otherwise the defaults. -/
lemma ofTable?_eq {t : Toml.Table} {s : Settings} (h : ofTable? t = some s) :
    s = { pretty := (statedPretty? t).getD false, indent := (statedIndent? t).getD 2,
          failFast := (statedFailFast? t).getD false } := by
  rw [ofTable?] at h
  obtain ⟨-, -, h⟩ := Option.bind_eq_some_iff.mp h
  obtain ⟨output, houtput, h⟩ := Option.bind_eq_some_iff.mp h
  obtain ⟨batch, hbatch, h⟩ := Option.bind_eq_some_iff.mp h
  obtain ⟨pretty, hpretty, h⟩ := Option.bind_eq_some_iff.mp h
  obtain ⟨indent, hindent, h⟩ := Option.bind_eq_some_iff.mp h
  obtain ⟨failFast, hfailFast, hs⟩ := Option.bind_eq_some_iff.mp h
  have hp := eq_of_field? hpretty
  have hi := eq_of_field? hindent
  have hf := eq_of_field? hfailFast
  rw [lookup_eq_stated? houtput] at hp hi
  rw [lookup_eq_stated? hbatch] at hf
  rw [statedPretty?, statedIndent?, statedFailFast?, ← hp, ← hi, ← hf]
  exact (Option.some.inj hs).symm

/-! ### The chosen file -/

/-- The paths under which a settings file is looked for: in a directory, then outwards in those
around it. -/
def candidates (d : Directory) : List Text :=
  d.tails.map fun around => Directory.file around fileName

/-- The file that the settings are from: the named one, or else the nearest that is present. -/
def chosen? (e : Environment Id) (path : Option Text) : Option Text :=
  match path with
  | some path => some path
  | none => e.directory.run.bind fun d =>
      (candidates d).find? fun path => (e.look path).run.isPresent

lemma candidates_cons (name : Text) (parent : Directory) :
    candidates (name :: parent) =
      Directory.file (name :: parent) fileName :: candidates parent := rfl

/-- Looking outwards finds the nearest candidate that is present. -/
lemma discover_eq (look : Text → Id Lookup) (d : Directory) :
    (discover look d).run =
      ((candidates d).find? fun path => (look path).run.isPresent).map
        fun path => (path, (look path).run) := by
  induction d with
  | nil =>
      show (if (look (Directory.file [] fileName)).run.isPresent then
          some (Directory.file [] fileName, (look (Directory.file [] fileName)).run)
        else none) = _
      rw [candidates, List.tails, List.map_singleton, List.find?_singleton]
      cases (look (Directory.file [] fileName)).run.isPresent <;> rfl
  | cons name parent ih =>
      rw [candidates_cons, List.find?_cons, discover]
      cases hpresent : (look (Directory.file (name :: parent) fileName)).run.isPresent with
      | true => exact if_pos hpresent
      | false =>
          rw [← ih]
          exact if_neg (Bool.eq_false_iff.mp hpresent)

/-- The settings of a file, if it is present. -/
def ofPresent (e : Environment Id) (file : Text) : Except SettingsError Settings :=
  if (e.look file).run.isPresent then ofLookup file (e.look file).run else .error (.notFound file)

/-- The settings of the chosen file, or the defaults without one. -/
lemma base_eq (e : Environment Id) (path : Option Text) :
    (base e path).run = (chosen? e path).elim (.ok {}) (ofPresent e) := by
  cases path with
  | some path => rfl
  | none =>
      rw [chosen?]
      cases hd : e.directory.run with
      | none =>
          have hdirectory : e.directory = pure none := hd
          rw [base, hdirectory]
          rfl
      | some d =>
          have hdirectory : e.directory = pure (some d) := hd
          have hdiscover := discover_eq e.look d
          rw [Option.bind_some]
          cases hfind : (candidates d).find? fun path => (e.look path).run.isPresent with
          | none =>
              rw [hfind] at hdiscover
              have hnone : discover e.look d = pure none := hdiscover
              simp only [base, hdirectory, hnone, pure_bind]
              rfl
          | some path =>
              rw [hfind] at hdiscover
              have hsome : discover e.look d = pure (some (path, (e.look path).run)) := hdiscover
              simp only [base, hdirectory, hsome, pure_bind]
              exact (if_pos (List.find?_some hfind)).symm

/-- Choices replace the switches and nothing else. -/
lemma run_load (e : Environment Id) (path : Option Text) (choices : Option Choices) :
    (load e path choices).run = (base e path).run.map fun s =>
      { s with pretty := (choices.bind Choices.pretty).getD s.pretty,
               failFast := (choices.bind Choices.failFast).getD s.failFast } := by
  cases choices with
  | none => rfl
  | some c => rfl

/-- What is loaded are settings of the chosen file with choices over them. -/
lemma exists_base_of_load {e : Environment Id} {path : Option Text} {choices : Option Choices}
    {s : Settings} (h : (load e path choices).run = .ok s) :
    ∃ u, (base e path).run = .ok u ∧
      s = { u with pretty := (choices.bind Choices.pretty).getD u.pretty,
                   failFast := (choices.bind Choices.failFast).getD u.failFast } := by
  rw [run_load] at h
  cases hbase : (base e path).run with
  | error error =>
      rw [hbase] at h
      cases h
  | ok u =>
      rw [hbase] at h
      exact ⟨u, rfl, (Except.ok.inj h).symm⟩

/-- Only a file has a content. -/
lemma eq_file_of_content {l : Lookup} {content : Text} (h : l.content = .ok content) :
    l = .file content := by
  cases l with
  | file t => rw [Except.ok.inj h]
  | directory => cases h
  | missing => cases h
  | blocked => cases h
  | tooLong => cases h
  | unreadable reason => cases h

/-- A file whose settings can be used holds a document, and they are those of this document. -/
lemma exists_of_ofLookup {file : Text} {l : Lookup} {s : Settings} (h : ofLookup file l = .ok s) :
    ∃ content t, l = .file content ∧ Toml.read? content = some t ∧ s.isValid = true ∧
      (ofTable? t).map (fun u => { u with source := some file }) = some s := by
  rw [ofLookup] at h
  split at h
  · rename_i content hcontent
    rw [ofFile] at h
    split at h
    · cases h
    · rename_i u hu
      obtain ⟨t, hread, htable⟩ := Option.bind_eq_some_iff.mp hu
      rw [validate] at h
      split at h
      · rename_i hvalid
        obtain rfl := Except.ok.inj h
        exact ⟨content, t, eq_file_of_content hcontent, hread, hvalid, by rw [htable]; rfl⟩
      · cases h
  · cases h

lemma isValid_iff {s : Settings} : s.isValid = true ↔ 1 ≤ s.indent ∧ s.indent ≤ 8 := by
  rw [isValid, maxIndent, Bool.and_eq_true, decide_eq_true_eq, decide_eq_true_eq]

/-! ### Layers -/

/-- Whether a document is what the chosen file holds. Without a file it is empty. -/
def HoldsDocument (e : Environment Id) (file? : Option Text) (t : Toml.Table) : Prop :=
  match file? with
  | none => t = []
  | some file => ∃ content, (e.look file).run = .file content ∧ Toml.read? content = some t

/-- Settings before any choices are those that the document in the chosen file states, and otherwise
the defaults. -/
lemma exists_document_of_base {e : Environment Id} {path : Option Text} {s : Settings}
    (h : (base e path).run = .ok s) :
    ∃ t, HoldsDocument e (chosen? e path) t ∧ s.isValid = true ∧
      s = { pretty := (statedPretty? t).getD false, indent := (statedIndent? t).getD 2,
            failFast := (statedFailFast? t).getD false, source := chosen? e path } := by
  rw [base_eq] at h
  cases hchosen : chosen? e path with
  | none =>
      rw [hchosen] at h
      obtain rfl := Except.ok.inj h
      exact ⟨[], rfl, rfl, rfl⟩
  | some file =>
      rw [hchosen, Option.elim_some, ofPresent] at h
      split at h
      · obtain ⟨content, t, hcontent, hread, hvalid, htable⟩ := exists_of_ofLookup h
        obtain ⟨u, hu, rfl⟩ := Option.map_eq_some_iff.mp htable
        exact ⟨t, ⟨content, hcontent, hread⟩, hvalid, by rw [ofTable?_eq hu]⟩
      · cases h

/-- **Layers of settings.** Settings that can be loaded have an indentation in range, are from the
chosen file, and are what is chosen, otherwise what the document in that file states, otherwise the
defaults. Choices decide about the two switches alone: the indentation, the file, and whether and
why there are no settings, are the same without them. A named file that is not there is missing,
whatever there is elsewhere; if no file is chosen, the defaults can always be loaded. -/
theorem load_layers (e : Environment Id) (path : Option Text) (choices : Option Choices) :
    (∀ s, (load e path choices).run = .ok s →
      (1 ≤ s.indent ∧ s.indent ≤ 8) ∧ s.source = chosen? e path ∧
        ∃ t, HoldsDocument e (chosen? e path) t ∧
          s.pretty = ((choices.bind Choices.pretty).or (statedPretty? t)).getD false ∧
          s.failFast = ((choices.bind Choices.failFast).or (statedFailFast? t)).getD false ∧
          s.indent = (statedIndent? t).getD 2) ∧
      (load e path choices).run.map (fun s => (s.indent, s.source)) =
        (load e path none).run.map (fun s => (s.indent, s.source)) ∧
      (∀ file, path = some file → (e.look file).run.isPresent = false →
        (load e path choices).run = .error (.notFound file)) ∧
      (chosen? e path = none → ∃ s, (load e path choices).run = .ok s) := by
  refine ⟨fun s hs => ?_, ?_, ?_, ?_⟩
  · obtain ⟨u, hbase, rfl⟩ := exists_base_of_load hs
    obtain ⟨t, ht, hvalid, hu⟩ := exists_document_of_base hbase
    refine ⟨isValid_iff.mp hvalid, by rw [hu], t, ht, ?_, ?_, by rw [hu]⟩
    · rw [hu, Option.getD_or]
    · rw [hu, Option.getD_or]
  · rw [run_load, run_load]
    cases (base e path).run <;> rfl
  · rintro file rfl hmissing
    rw [run_load, base_eq, chosen?, Option.elim_some, ofPresent, hmissing]
    rfl
  · intro hchosen
    rw [run_load, base_eq, hchosen]
    exact ⟨_, rfl⟩

/-- A settings file that states all settings. -/
def sampleFile : Text :=
  "[output]\npretty = true\nindent = 4\n[batch]\nfail_fast = true\n".toList

/-- Surroundings with this file two levels above the current directory. -/
def sampleEnvironment : Environment Id :=
  (FileTree.directory [("a".toList, .directory
    [(fileName, .file sampleFile), ("b".toList, .directory [("c".toList, .directory [])])])]
    ).environment ["c".toList, "b".toList, "a".toList] []

/-- The settings of the sample, with one switch chosen otherwise. -/
def sampleSettings : Settings :=
  { pretty := false, indent := 4, failFast := true, source := some "/a/xmldoc.toml".toList }

/-- The sample is found, and a choice goes over it; no other file replaces a missing one. -/
theorem load_layers_sample :
    (load sampleEnvironment none (some { pretty := some false })).run = .ok sampleSettings ∧
      sampleSettings.source = chosen? sampleEnvironment none ∧
      (load sampleEnvironment (some "none.toml".toList) none).run =
        .error (.notFound "none.toml".toList) := by
  have hload : (load sampleEnvironment none (some { pretty := some false })).run =
      .ok sampleSettings := by decide +kernel
  obtain ⟨hlayers, -⟩ := load_layers sampleEnvironment none (some { pretty := some false })
  obtain ⟨-, -, hmissing, -⟩ := load_layers sampleEnvironment (some "none.toml".toList) none
  exact ⟨hload, (hlayers _ hload).2.1, hmissing _ rfl (by decide +kernel)⟩

end DocComment.Settings
