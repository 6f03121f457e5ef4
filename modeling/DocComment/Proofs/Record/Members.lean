import DocComment.Proofs.Record.Json

/-!
Records, read from objects that need not be laid out as they are written.

* **Members.** An object lays out a record if its members give each field that is not empty, none of
  them twice, and nothing else for a field (`Record.LaysOut`). Their order is free, empty fields may
  be given or not, and between them may stand any members that are no fields.
* **Reading.** The record is read from every JSON text of such an object
  (`Record.read?_of_laysOut`).
-/

namespace DocComment

open Json

/-! ### Values of members -/

/-- Whether a value is a string that is a given text. -/
def Json.Value.IsStringOf (v : Value) (t : Text) : Prop :=
  ∃ units : Units, v = .string units ∧ units.Says t

/-- Whether a value is an object with the entries of a map, in their order. -/
def Json.Value.IsObjectOf (v : Value) (m : OrderedMap Text) : Prop :=
  ∃ members, v = .object members ∧
    List.Forall₂ (fun member e => member.1.Says e.1 ∧ member.2.IsStringOf e.2) members m.entries

lemma Json.Value.IsStringOf.text?_eq {v : Value} {t : Text} (h : v.IsStringOf t) :
    v.text? = some t := by
  obtain ⟨units, rfl, hsays⟩ := h
  exact hsays.text?_eq

lemma Json.Units.says_ofText (t : Text) : (ofText t).Says t := by
  induction t with
  | nil => exact .nil
  | cons c t ih => exact .char ih

/-- The members of an object whose names are texts. -/
lemma Json.Value.members?_of_says {members : List (Units × Value)} {named : List (Text × Value)}
    (h : List.Forall₂ (fun m n => m.1.Says n.1 ∧ m.2 = n.2) members named) :
    (object members).members? = some named := by
  refine mapM_eq_some_of_forall₂ (h.imp ?_)
  rintro ⟨units, v⟩ ⟨name, w⟩ ⟨hname, rfl⟩
  show units.text?.map _ = _
  rw [hname.text?_eq, Option.map_some]

/-- A map is read from each object with its entries. -/
lemma OrderedMap.ofJson?_of_isObjectOf {v : Value} {m : OrderedMap Text} (h : v.IsObjectOf m) :
    ofJson? v = some m := by
  obtain ⟨members, rfl, hmembers⟩ := h
  obtain ⟨named, hnamed, hentries⟩ := Value.exists_members?_eq
    (hmembers.imp fun _ _ he => ⟨he.1.text?_eq, he.2.text?_eq⟩)
  rw [ofJson?, hnamed, Option.bind_eq_bind, Option.bind_some, hentries]
  exact congrArg some (ofList_entries m)

/-! ### Records -/

namespace Record

/-- Whether a field is given by members: those with its name give it, and there is one unless the
field is empty. -/
structure GivesField (members : List (Text × Value)) (name : Text) (isEmpty : Prop)
    (gives : Value → Prop) : Prop where
  given : ∀ v, (name, v) ∈ members → gives v
  missing : name ∉ members.map Prod.fst → isEmpty

/-- Whether the members of an object give the fields of a record. Other members do not matter. -/
structure LaysOut (r : Record) (members : List (Text × Value)) : Prop where
  once : ((members.map Prod.fst).filter (· ∈ fieldNames)).Nodup
  texts : ∀ f ∈ r.texts, GivesField members f.1.toList (f.2 = []) fun v => v.IsStringOf f.2
  maps : ∀ f ∈ r.maps, GivesField members f.1.toList (f.2 = .empty) fun v => v.IsObjectOf f.2

lemma lookup_cases (members : List (Text × Value)) (name : Text) :
    (∃ v, members.lookup name = some v ∧ (name, v) ∈ members) ∨
      (members.lookup name = none ∧ name ∉ members.map Prod.fst) := by
  cases h : members.lookup name with
  | some v =>
      obtain ⟨before, after, rfl, -⟩ := List.lookup_eq_some_iff.mp h
      exact .inl ⟨v, rfl, by simp⟩
  | none =>
      refine .inr ⟨rfl, fun hmem => ?_⟩
      obtain ⟨m, hm, rfl⟩ := List.mem_map.mp hmem
      simpa using List.lookup_eq_none_iff.mp h m hm

lemma textField_of_givesField {members : List (Text × Value)} {name : String} {t : Text}
    (h : GivesField members name.toList (t = []) fun v => v.IsStringOf t) :
    textField members name = some t := by
  rw [textField]
  rcases lookup_cases members name.toList with ⟨v, hlookup, hmem⟩ | ⟨hlookup, hmem⟩
  · rw [hlookup]
    exact (h.given v hmem).text?_eq
  · rw [hlookup, h.missing hmem]

lemma mapField_of_givesField {members : List (Text × Value)} {name : String} {m : OrderedMap Text}
    (h : GivesField members name.toList (m = .empty) fun v => v.IsObjectOf m) :
    mapField members name = some m := by
  rw [mapField]
  rcases lookup_cases members name.toList with ⟨v, hlookup, hmem⟩ | ⟨hlookup, hmem⟩
  · rw [hlookup]
    exact OrderedMap.ofJson?_of_isObjectOf (h.given v hmem)
  · rw [hlookup, h.missing hmem]

/-- No field is given twice. -/
lemma LaysOut.fieldsDistinct {r : Record} {members : List (Text × Value)} (h : r.LaysOut members) :
    fieldsDistinct members = true := by
  rw [Record.fieldsDistinct, List.all_eq_true]
  intro name hname
  have hcount := List.nodup_iff_count_le_one.mp h.once name
  rw [List.count_filter (by simpa using hname)] at hcount
  exact decide_eq_true hcount

/-- **A record does not depend on the layout of its object.** Let a text be an object in JSON, with
any blanks and any escapes, whose members give a record: each field at most once and in any place,
maps in their order, no field that is not empty missing, and besides any members that are no fields.
Then the record is read from the text. -/
theorem read?_of_laysOut {r : Record} {t : Text} {members : List (Units × Value)}
    {named : List (Text × Value)} (htext : (Value.object members).IsText t)
    (hnames : List.Forall₂ (fun m n => m.1.Says n.1 ∧ m.2 = n.2) members named)
    (h : r.LaysOut named) : read? t = some r := by
  have hmembers : (Value.object members).members? = some named := Value.members?_of_says hnames
  have hrecord : ofMembers? named = some r :=
    ofMembers?_eq_some h.fieldsDistinct (fun f hf => textField_of_givesField (h.texts f hf))
      fun f hf => mapField_of_givesField (h.maps f hf)
  rw [read?, Value.read?_of_isText htext, Option.bind_some]
  show (Value.members? _).bind ofMembers? = some r
  rw [hmembers, Option.bind_some, hrecord]

/-- A text in which a pair of escapes stands for one character, with a member that is no field and
a field that is empty. -/
def looseText : Text :=
  " \x7b\"x\" : [ -1.5e3],\"Remarks\":\"\\uD83D\\ude00\" , \"Value\":\"\"\x7d\n".toList

/-- The members of its object. -/
def looseMembers : List (Units × Value) :=
  [(.ofText "x".toList, .array [.number "-1.5e3".toList]),
    (.ofText "Remarks".toList, .string [.surrogate 0xD83D, .surrogate 0xDE00]),
    (.ofText "Value".toList, .string [])]

/-- The same members by their names. -/
def looseNamed : List (Text × Value) :=
  [("x".toList, .array [.number "-1.5e3".toList]),
    ("Remarks".toList, .string [.surrogate 0xD83D, .surrogate 0xDE00]),
    ("Value".toList, .string [])]

lemma isText_looseText : (Value.object looseMembers).IsText looseText := by
  have hblank : AreBlanks [' '] := List.forall_mem_singleton.mpr (.inl rfl)
  have hname (t : Text) : (Units.ofText t).StandAs ((Units.ofText t).flatMap Unit.written) :=
    Units.standAs_written (Units.isSound_ofText t)
  have hnumber : IsNumber "-1.5e3".toList := isNumber_iff.mpr (by decide)
  have hhigh : (Unit.surrogate 0xD83D).StandsAs "\\uD83D".toList :=
    .half ⟨by simp, [13, 8, 3, 13], rfl, rfl⟩ (by decide)
  have hlow : (Unit.surrogate 0xDE00).StandsAs "\\ude00".toList :=
    .half ⟨by simp, [13, 14, 0, 0], rfl, rfl⟩ (by decide)
  have hother : MemberStandsAs (.ofText "x".toList, .array [.number "-1.5e3".toList])
      "\"x\" : [ -1.5e3]".toList :=
    .mk areBlanks_nil (hname _) hblank hblank (.array hblank (.number hnumber) (.nil areBlanks_nil))
  have hremarks : MemberStandsAs
      (.ofText "Remarks".toList, .string [.surrogate 0xD83D, .surrogate 0xDE00])
      "\"Remarks\":\"\\uD83D\\ude00\"".toList :=
    .mk areBlanks_nil (hname _) areBlanks_nil areBlanks_nil
      (.string (.cons hhigh (.cons hlow .nil)))
  have hvalue : MemberStandsAs (.ofText "Value".toList, .string []) " \"Value\":\"\"".toList :=
    .mk hblank (hname _) areBlanks_nil areBlanks_nil (.string .nil)
  have hobject : (Value.object looseMembers).StandsAs
      "\x7b\"x\" : [ -1.5e3],\"Remarks\":\"\\uD83D\\ude00\" , \"Value\":\"\"\x7d".toList :=
    .object hother (.cons areBlanks_nil hremarks (.cons hblank hvalue (.nil areBlanks_nil)))
  exact ⟨[' '], _, ['\n'], rfl, hblank, hobject, List.forall_mem_singleton.mpr (.inr (.inl rfl))⟩

lemma forall₂_says_looseNamed :
    List.Forall₂ (fun m n => m.1.Says n.1 ∧ m.2 = n.2) looseMembers looseNamed :=
  .cons ⟨Units.says_ofText _, rfl⟩ (.cons ⟨Units.says_ofText _, rfl⟩
    (.cons ⟨Units.says_ofText _, rfl⟩ .nil))

lemma laysOut_looseNamed : ({ remarks := "😀".toList } : Record).LaysOut looseNamed := by
  have habsent {name : Text} {isEmpty : Prop} {gives : Value → Prop} (hempty : isEmpty)
      (hname : name ∉ looseNamed.map Prod.fst) : GivesField looseNamed name isEmpty gives :=
    ⟨fun v hv => absurd (List.mem_map_of_mem hv) hname, fun _ => hempty⟩
  have hremarks : GivesField looseNamed "Remarks".toList ("😀".toList = [])
      fun v => v.IsStringOf "😀".toList := by
    refine ⟨fun v hv => ?_, fun hname => absurd (by decide) hname⟩
    obtain rfl : v = .string [.surrogate 0xD83D, .surrogate 0xDE00] := by
      simpa [looseNamed] using hv
    exact ⟨_, rfl, .pair (by decide) (by decide) rfl .nil⟩
  have hvalue : GivesField looseNamed "Value".toList True fun v => v.IsStringOf [] := by
    refine ⟨fun v hv => ?_, fun _ => trivial⟩
    obtain rfl : v = .string [] := by simpa [looseNamed] using hv
    exact ⟨_, rfl, .nil⟩
  refine ⟨by decide, ?_, ?_⟩
  · simp only [texts, List.forall_mem_cons]
    exact ⟨habsent trivial (by decide), hremarks, habsent trivial (by decide), hvalue,
      habsent trivial (by decide), List.forall_mem_nil _⟩
  · simp only [maps, List.forall_mem_cons]
    exact ⟨habsent trivial (by decide), habsent trivial (by decide), habsent trivial (by decide),
      habsent trivial (by decide), habsent trivial (by decide),
      List.forall_mem_nil _⟩

/-- The record is read from this text. -/
theorem read?_looseText : read? looseText = some { remarks := "😀".toList } :=
  read?_of_laysOut isText_looseText forall₂_says_looseNamed laysOut_looseNamed

end Record

end DocComment
