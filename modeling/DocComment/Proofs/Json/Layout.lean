import DocComment.Json.Layout
import DocComment.Proofs.Json.Grammar

/-!
Whatever the layout, a written value is read back.

* **Sound values.** A value is sound if it can be written at all: its numbers have the form of
  JSON numbers, and the lone halves of surrogate pairs in its strings are such halves
  (`Value.IsSound`). Values made from texts are sound.
* **Layouts.** The text of a sound value follows the grammar, in every layout and at every level
  (`standsAs_written`), since a layout only puts blanks between tokens.
* **Reading back.** So each document is read as the value it was written for (`read?_document`).
-/

namespace DocComment.Json

/-! ### Sound values -/

/-- Whether a unit can be written: no character has a code that is a half of a pair. -/
def Unit.IsSound : Unit → Prop
  | char _ => True
  | surrogate code => code ≤ 0xFFFF ∧ ¬ code.isValidChar

/-- Whether a string can be written. -/
def Units.IsSound (units : Units) : Prop :=
  ∀ u ∈ units, u.IsSound

/-- Whether a token can be written. -/
def Token.IsSound : Token → Prop
  | number w => dropNumber? w = some []
  | string units => units.IsSound
  | _ => True

/-- Whether a value can be written. -/
def Value.IsSound (v : Value) : Prop :=
  ∀ token ∈ v.tokens, token.IsSound

lemma Units.isSound_ofText (t : Text) : (ofText t).IsSound := by
  intro u hu
  obtain ⟨c, -, rfl⟩ := List.mem_map.mp hu
  trivial

namespace Value

lemma isSound_ofText (t : Text) : (ofText t).IsSound := by
  intro token htoken
  obtain rfl : token = .string (.ofText t) := List.mem_singleton.mp htoken
  exact Units.isSound_ofText t

lemma isSound_moreItemTokens_iff {vs : List Value} :
    (∀ token ∈ moreItemTokens vs, token.IsSound) ↔ ∀ v ∈ vs, v.IsSound := by
  induction vs with
  | nil => simp [moreItemTokens]
  | cons v vs ih =>
      simp only [moreItemTokens, List.forall_mem_cons, List.forall_mem_append, ih]
      exact and_iff_right trivial

/-- An array is sound if its items are. -/
lemma isSound_array_iff {vs : List Value} : (array vs).IsSound ↔ ∀ v ∈ vs, v.IsSound := by
  cases vs with
  | nil => simp [IsSound, tokens, Token.IsSound]
  | cons v vs =>
      rw [IsSound, tokens]
      simp only [List.forall_mem_cons, List.forall_mem_append, isSound_moreItemTokens_iff]
      constructor
      · rintro ⟨-, hv, hvs, -⟩
        exact ⟨hv, hvs⟩
      · rintro ⟨hv, hvs⟩
        exact ⟨trivial, hv, hvs, trivial, List.forall_mem_nil _⟩

lemma isSound_moreMemberTokens_iff {ms : List (Units × Value)} :
    (∀ token ∈ moreMemberTokens ms, token.IsSound) ↔
      ∀ m ∈ ms, m.1.IsSound ∧ m.2.IsSound := by
  induction ms with
  | nil => simp [moreMemberTokens]
  | cons m ms ih =>
      obtain ⟨name, v⟩ := m
      simp only [moreMemberTokens, List.forall_mem_cons, List.forall_mem_append, ih]
      constructor
      · rintro ⟨-, hname, -, hv, hms⟩
        exact ⟨⟨hname, hv⟩, hms⟩
      · rintro ⟨⟨hname, hv⟩, hms⟩
        exact ⟨trivial, hname, trivial, hv, hms⟩

/-- An object is sound if the names and the values of its members are. -/
lemma isSound_object_iff {ms : List (Units × Value)} :
    (object ms).IsSound ↔ ∀ m ∈ ms, m.1.IsSound ∧ m.2.IsSound := by
  cases ms with
  | nil => simp [IsSound, tokens, Token.IsSound]
  | cons m ms =>
      obtain ⟨name, v⟩ := m
      rw [IsSound, tokens]
      simp only [List.forall_mem_cons, List.forall_mem_append, isSound_moreMemberTokens_iff]
      constructor
      · rintro ⟨-, hname, -, hv, hms, -⟩
        exact ⟨⟨hname, hv⟩, hms⟩
      · rintro ⟨⟨hname, hv⟩, hms⟩
        exact ⟨trivial, hname, trivial, hv, hms, trivial, List.forall_mem_nil _⟩

end Value

/-! ### Strings -/

lemma digit?_hexDigit (n : ℕ) : Text.digit? 16 (hexDigit n) = some (n % 16) := by
  have h : ∀ d < 16, Text.digit? 16 (Nat.digitChar d) = some d := by decide
  exact h (n % 16) (Nat.mod_lt n (by decide))

/-- The digits of an escape stand for its code. -/
lemma isNumeral_hexDigits {code : ℕ} (h : code ≤ 0xFFFF) :
    Text.IsNumeral 16 [hexDigit (code / 4096), hexDigit (code / 256), hexDigit (code / 16),
      hexDigit code] code := by
  refine ⟨List.cons_ne_nil _ _, [code / 4096 % 16, code / 256 % 16, code / 16 % 16, code % 16],
    ?_, ?_⟩
  · simp only [List.map_cons, List.map_nil, digit?_hexDigit]
  · simp only [List.foldl_cons, List.foldl_nil]
    omega

/-- A character is written as it may stand in a string. -/
lemma standsAs_escaped (c : Char) : (Unit.char c).StandsAs (escaped c) := by
  unfold escaped
  split
  · subst c
    exact .letter (by decide)
  rename_i hquote
  split
  · subst c
    exact .letter (by decide)
  rename_i hbackslash
  split
  · subst c
    exact .letter (by decide)
  split
  · subst c
    exact .letter (by decide)
  split
  · subst c
    exact .letter (by decide)
  split
  · subst c
    exact .letter (by decide)
  split
  · subst c
    exact .letter (by decide)
  split
  · rename_i hcontrol
    exact .code (isNumeral_hexDigits (by omega))
  · rename_i hcontrol
    exact .plain (Nat.not_lt.mp hcontrol) hquote hbackslash

lemma Unit.standsAs_written {u : Unit} (h : u.IsSound) : u.StandsAs u.written := by
  cases u with
  | char c => exact standsAs_escaped c
  | surrogate code =>
      obtain ⟨hbound, hvalid⟩ := h
      unfold Nat.isValidChar at hvalid
      exact .half (isNumeral_hexDigits hbound) (by omega)

lemma Units.standAs_written {units : Units} (h : units.IsSound) :
    units.StandAs (units.flatMap Unit.written) := by
  induction units with
  | nil => exact .nil
  | cons u units ih =>
      obtain ⟨hu, hunits⟩ := List.forall_mem_cons.mp h
      exact .cons (Unit.standsAs_written hu) (ih hunits)

/-! ### Blanks -/

lemma areBlanks_nil : AreBlanks [] := nofun

lemma areBlanks_lineBreak (l : Layout) (level : ℕ) : AreBlanks (l.lineBreak level) := by
  cases l with
  | compact => exact areBlanks_nil
  | indented width =>
      refine List.forall_mem_cons.mpr ⟨.inr (.inl rfl), fun c hc => .inl ?_⟩
      exact List.eq_of_mem_replicate hc

lemma exists_colon_eq (l : Layout) : ∃ gap, AreBlanks gap ∧ l.colon = ':' :: gap := by
  cases l with
  | compact => exact ⟨[], areBlanks_nil, rfl⟩
  | indented width => exact ⟨[' '], by simp [AreBlanks], rfl⟩

/-! ### Values -/

/-- A member is written as it may stand in an object, if its value is. -/
lemma memberStandsAs_written (l : Layout) (level : ℕ) {name : Units} (hname : name.IsSound)
    {v : Value} {w : Text} (hv : v.StandsAs w) :
    MemberStandsAs (name, v) (l.lineBreak level ++ name.written ++ l.colon ++ w) := by
  obtain ⟨gap, hgap, hcolon⟩ := exists_colon_eq l
  have hmember := MemberStandsAs.mk (areBlanks_lineBreak l level) (Units.standAs_written hname)
    areBlanks_nil hgap hv
  rw [hcolon, Units.written]
  simpa only [List.append_assoc, List.cons_append, List.nil_append] using hmember

namespace Value

mutual

/-- **A written value follows the grammar**, whatever the layout and the level. -/
theorem standsAs_written (l : Layout) (level : ℕ) (v : Value) (hv : v.IsSound) :
    v.StandsAs (v.written l level) := by
  cases v with
  | null => exact .null
  | bool b =>
      cases b with
      | true => exact .true
      | false => exact .false
  | number w => exact .number (isNumber_iff.mpr (hv _ (.head _)))
  | string units => exact .string (Units.standAs_written (hv _ (.head _)))
  | array items =>
      rw [isSound_array_iff] at hv
      cases items with
      | nil => exact .emptyArray areBlanks_nil
      | cons v vs =>
          obtain ⟨hv, hvs⟩ := List.forall_mem_cons.mp hv
          have hfirst := standsAs_written l (level + 1) v hv
          have hmore := itemsStandAs_written l (level + 1) vs hvs (areBlanks_lineBreak l level)
          have harray := StandsAs.array (areBlanks_lineBreak l (level + 1)) hfirst hmore
          simpa only [written, List.cons_append, List.append_assoc] using harray
  | object members =>
      rw [isSound_object_iff] at hv
      cases members with
      | nil => exact .emptyObject areBlanks_nil
      | cons m ms =>
          obtain ⟨name, v⟩ := m
          obtain ⟨⟨hname, hv⟩, hms⟩ := List.forall_mem_cons.mp hv
          have hfirst := memberStandsAs_written l (level + 1) hname
            (standsAs_written l (level + 1) v hv)
          have hmore := membersStandAs_written l (level + 1) ms hms (areBlanks_lineBreak l level)
          have hobject := StandsAs.object hfirst hmore
          simpa only [written, List.cons_append, List.append_assoc] using hobject

/-- The items after the first follow the grammar, up to blanks at the end. -/
theorem itemsStandAs_written (l : Layout) (level : ℕ) (vs : List Value)
    (hvs : ∀ v ∈ vs, v.IsSound) {gap : Text} (hgap : AreBlanks gap) :
    ItemsStandAs vs (moreItems l level vs ++ gap) := by
  cases vs with
  | nil => exact .nil hgap
  | cons v vs =>
      obtain ⟨hv, hvs⟩ := List.forall_mem_cons.mp hvs
      have hfirst := standsAs_written l level v hv
      have hmore := itemsStandAs_written l level vs hvs hgap
      have hitems := ItemsStandAs.cons areBlanks_nil (areBlanks_lineBreak l level) hfirst hmore
      simpa only [moreItems, List.cons_append, List.append_assoc, List.nil_append] using hitems

/-- The members after the first follow the grammar, up to blanks at the end. -/
theorem membersStandAs_written (l : Layout) (level : ℕ) (ms : List (Units × Value))
    (hms : ∀ m ∈ ms, m.1.IsSound ∧ m.2.IsSound) {gap : Text} (hgap : AreBlanks gap) :
    MembersStandAs ms (moreMembers l level ms ++ gap) := by
  cases ms with
  | nil => exact .nil hgap
  | cons m ms =>
      obtain ⟨name, v⟩ := m
      obtain ⟨⟨hname, hv⟩, hms⟩ := List.forall_mem_cons.mp hms
      have hfirst := memberStandsAs_written l level hname (standsAs_written l level v hv)
      have hmore := membersStandAs_written l level ms hms hgap
      have hmembers := MembersStandAs.cons areBlanks_nil hfirst hmore
      simpa only [moreMembers, List.cons_append, List.append_assoc, List.nil_append]
        using hmembers

end

/-- In every layout the document of a sound value is a text of this value. -/
lemma isText_document {v : Value} (h : v.IsSound) (l : Layout) : v.IsText (v.document l) :=
  ⟨[], v.written l 0, ['\n'], rfl, areBlanks_nil, standsAs_written l 0 v h, by simp [AreBlanks]⟩

/-- In every layout the document of a sound value spells its tokens. -/
theorem spelling_document {v : Value} (h : v.IsSound) (l : Layout) :
    Spelling v.tokens (v.document l) :=
  spelling_of_isText (isText_document h l)

/-- **Reading back**: in every layout the document of a sound value is read as this value. -/
theorem read?_document {v : Value} (h : v.IsSound) (l : Layout) :
    read? (v.document l) = some v :=
  read?_of_isText (isText_document h l)

end Value

end DocComment.Json
