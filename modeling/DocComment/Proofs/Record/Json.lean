import DocComment.Batch
import DocComment.Proofs.Json.Layout
import DocComment.Proofs.OrderedMap
import Mathlib.Data.List.Forall2
import Mathlib.Data.List.Nodup

/-!
Records and batches, read back from the JSON that is written for them.

* **Maps.** A map is read back from its object in its own order, if each of its values is
  (`OrderedMap.ofObject?_toObject`).
* **Records.** The members of a record are the fields that have something to say. Each is found
  under its own name, and what is not found is empty (`Record.ofJson?_toJson`).
* **Texts.** Written values are sound, so the layout does not matter
  (`Record.read?_toJson_document`).
-/

namespace DocComment

open Json

/-! ### Maps -/

/-- What can be read one by one can be read together. -/
lemma mapM_eq_some_of_forall₂ {α β : Type} {read : α → Option β} {as : List α} {bs : List β}
    (h : List.Forall₂ (fun a b => read a = some b) as bs) : as.mapM read = some bs := by
  induction h with
  | nil => rfl
  | cons hread _ ih =>
      rw [List.mapM_cons, hread, ih]
      rfl

/-- What is written piece by piece is read back piece by piece. -/
lemma mapM_map_eq_some {α β : Type} {write : α → β} {read : β → Option α}
    (h : ∀ a, read (write a) = some a) (as : List α) : (as.map write).mapM read = some as := by
  refine mapM_eq_some_of_forall₂ ?_
  rw [List.forall₂_map_left_iff, List.forall₂_same]
  exact fun a _ => h a

/-- The members of an object whose names are texts. -/
lemma Json.Value.members?_object (es : List (Text × Value)) :
    (object (es.map fun e => (.ofText e.1, e.2))).members? = some es := by
  refine mapM_map_eq_some (fun e => ?_) es
  rw [Units.text?_ofText, Option.map_some]

/-- Members that can be read as entries, name by name and value by value. -/
lemma Json.Value.exists_members?_eq {α : Type} {read : Value → Option α}
    {members : List (Units × Value)} {entries : List (Text × α)}
    (h : List.Forall₂ (fun m e => m.1.text? = some e.1 ∧ read m.2 = some e.2) members entries) :
    ∃ named, (object members).members? = some named ∧
      named.mapM (fun m => (read m.2).map fun a => (m.1, a)) = some entries := by
  induction h with
  | nil => exact ⟨[], rfl, rfl⟩
  | @cons m entry members entries hread _ ih =>
      obtain ⟨named, hmembers, hentries⟩ := ih
      rw [members?] at hmembers
      refine ⟨(entry.1, m.2) :: named, ?_, ?_⟩
      · rw [members?, List.mapM_cons, hread.1, hmembers]
        rfl
      · rw [List.mapM_cons, hread.2, hentries]
        rfl

namespace OrderedMap

variable {α : Type}

/-- A map as an object, with each value written by itself. -/
def toObject (write : α → Value) (m : OrderedMap α) : Value :=
  .object (m.entries.map fun e => (.ofText e.1, write e.2))

/-- The map that an object holds, with each value read by itself. A name that comes again replaces
its value. -/
def ofObject? (read : Value → Option α) (v : Value) : Option (OrderedMap α) := do
  let members ← v.members?
  let entries ← members.mapM fun m => (read m.2).map fun a => (m.1, a)
  return .ofList entries

lemma members?_toObject (write : α → Value) (m : OrderedMap α) :
    (m.toObject write).members? = some (m.entries.map fun e => (e.1, write e.2)) := by
  rw [← Value.members?_object, List.map_map]
  rfl

/-- A map is read back in its own order, if each of its values is read back. -/
theorem ofObject?_toObject {write : α → Value} {read : Value → Option α}
    (h : ∀ a, read (write a) = some a) (m : OrderedMap α) :
    ofObject? read (m.toObject write) = some m := by
  have hentries : (m.entries.map fun e => (e.1, write e.2)).mapM
      (fun e => (read e.2).map fun a => (e.1, a)) = some m.entries := by
    refine mapM_map_eq_some (fun e => ?_) m.entries
    rw [h, Option.map_some]
  rw [ofObject?, members?_toObject, Option.bind_eq_bind, Option.bind_some, hentries]
  exact congrArg some (ofList_entries m)

/-- A map of texts is read back. -/
lemma ofJson?_toJson (m : OrderedMap Text) : ofJson? m.toJson = some m :=
  ofObject?_toObject Units.text?_ofText m

lemma isSound_toObject {write : α → Value} (h : ∀ a, (write a).IsSound) (m : OrderedMap α) :
    (m.toObject write).IsSound := by
  rw [toObject, Value.isSound_object_iff, List.forall_mem_map]
  exact fun e _ => ⟨Units.isSound_ofText e.1, h e.2⟩

end OrderedMap

/-! ### Records -/

namespace Record

/-- The texts of a record under the names of their members. -/
def texts (r : Record) : List (String × Text) :=
  [("Summary", r.summary), ("Remarks", r.remarks), ("Returns", r.returns), ("Value", r.value),
    ("Example", r.sample)]

/-- The maps of a record under the names of their members. -/
def maps (r : Record) : List (String × OrderedMap Text) :=
  [("Exceptions", r.exceptions), ("Params", r.params), ("Permissions", r.permissions),
    ("TypeParams", r.typeParams), ("SeeAlsos", r.seeAlsos)]

/-- A record is what its members say, if each of its fields is found among them. -/
theorem ofMembers?_eq_some {members : List (Text × Value)} {r : Record}
    (hdistinct : fieldsDistinct members = true)
    (htexts : ∀ f ∈ r.texts, textField members f.1 = some f.2)
    (hmaps : ∀ f ∈ r.maps, mapField members f.1 = some f.2) : ofMembers? members = some r := by
  simp only [texts, List.forall_mem_cons] at htexts
  simp only [maps, List.forall_mem_cons] at hmaps
  obtain ⟨hsummary, hremarks, hreturns, hvalue, hsample, -⟩ := htexts
  obtain ⟨hexceptions, hparams, hpermissions, htypeParams, hseeAlsos, -⟩ := hmaps
  rw [ofMembers?, if_pos hdistinct, hsummary, hremarks, hreturns, hvalue, hsample, hexceptions,
    hparams, hpermissions, htypeParams, hseeAlsos]
  rfl

/-- The value of a text, unless it is empty. -/
def textValue? (t : Text) : Option Value :=
  if t.isEmpty then none else some (.ofText t)

/-- The value of a map, unless it is empty. -/
def mapValue? (m : OrderedMap Text) : Option Value :=
  if m.isEmpty then none else some m.toJson

/-- The names of the fields of a record, each with the value that it is written with. -/
def fields (r : Record) : List (Text × Option Value) :=
  r.texts.map (fun f => (f.1.toList, textValue? f.2)) ++
    r.maps.map fun f => (f.1.toList, mapValue? f.2)

/-- The fields that are written. -/
def present (fields : List (Text × Option Value)) : List (Text × Value) :=
  fields.filterMap fun f => f.2.map fun v => (f.1, v)

lemma present_cons_none (name : Text) (fields : List (Text × Option Value)) :
    present ((name, none) :: fields) = present fields := rfl

lemma present_cons_some (name : Text) (v : Value) (fields : List (Text × Option Value)) :
    present ((name, some v) :: fields) = (name, v) :: present fields := rfl

lemma textMember_eq (name : String) (t : Text) :
    textMember name t =
      (present [(name.toList, textValue? t)]).map fun e => (.ofText e.1, e.2) := by
  rw [textMember, textValue?]
  split
  · rfl
  · rfl

lemma mapMember_eq (name : String) (m : OrderedMap Text) :
    mapMember name m = (present [(name.toList, mapValue? m)]).map fun e => (.ofText e.1, e.2) := by
  rw [mapMember, mapValue?]
  split
  · rfl
  · rfl

lemma toJson_eq (r : Record) :
    r.toJson = .object ((present r.fields).map fun e => (.ofText e.1, e.2)) := by
  simp only [toJson, textMember_eq, mapMember_eq, present, ← List.map_append,
    ← List.filterMap_append]
  rfl

lemma map_fst_fields (r : Record) : r.fields.map Prod.fst = fieldNames := by
  simp [fields, texts, maps, fieldNames]

lemma nodup_fieldNames : fieldNames.Nodup := by decide

lemma sublist_map_fst_present (fields : List (Text × Option Value)) :
    ((present fields).map Prod.fst).Sublist (fields.map Prod.fst) := by
  induction fields with
  | nil => exact .slnil
  | cons f fields ih =>
      obtain ⟨name, v⟩ := f
      cases v with
      | none => exact ih.cons name
      | some v => exact ih.cons_cons name

/-- No field is written twice. -/
lemma fieldsDistinct_present (r : Record) : fieldsDistinct (present r.fields) = true := by
  have hnodup : ((present r.fields).map Prod.fst).Nodup :=
    (map_fst_fields r ▸ nodup_fieldNames).sublist (sublist_map_fst_present r.fields)
  rw [fieldsDistinct, List.all_eq_true]
  intro name _
  exact decide_eq_true (List.nodup_iff_count_le_one.mp hnodup name)

/-- A field is found under its own name. -/
lemma lookup_present {fields : List (Text × Option Value)} {name : Text} {v : Option Value}
    (hnodup : (fields.map Prod.fst).Nodup) (h : (name, v) ∈ fields) :
    (present fields).lookup name = v := by
  induction fields with
  | nil => cases h
  | cons f fields ih =>
      obtain ⟨key, w⟩ := f
      obtain ⟨hkey, hrest⟩ := List.nodup_cons.mp hnodup
      rcases List.mem_cons.mp h with heq | htail
      · cases heq
        cases v with
        | none =>
            rw [present_cons_none, List.lookup_eq_none_iff]
            intro e he
            rw [bne_iff_ne]
            rintro rfl
            exact hkey ((sublist_map_fst_present fields).subset (List.mem_map_of_mem he))
        | some v => rw [present_cons_some, List.lookup_cons_self]
      · have hne : (name == key) = false := by
          rw [beq_eq_false_iff_ne]
          rintro rfl
          exact hkey (List.mem_map.mpr ⟨_, htail, rfl⟩)
        cases w with
        | none => exact ih hrest htail
        | some w =>
            rw [present_cons_some, List.lookup_cons, hne]
            exact ih hrest htail

lemma textField_of_lookup {members : List (Text × Value)} {name : String} {t : Text}
    (h : members.lookup name.toList = textValue? t) : textField members name = some t := by
  rw [textField, h]
  cases t with
  | nil => rfl
  | cons c t => exact Units.text?_ofText (c :: t)

lemma mapField_of_lookup {members : List (Text × Value)} {name : String} {m : OrderedMap Text}
    (h : members.lookup name.toList = mapValue? m) : mapField members name = some m := by
  rw [mapField, h, mapValue?]
  by_cases hempty : m.isEmpty = true
  · have hm : .empty = m := OrderedMap.ext_entries (List.isEmpty_iff.mp hempty).symm
    rw [if_pos hempty, hm]
  · rw [if_neg hempty]
    exact OrderedMap.ofJson?_toJson m

/-- **A record is read back from its JSON value.** -/
theorem ofJson?_toJson (r : Record) : ofJson? r.toJson = some r := by
  have hnodup : (r.fields.map Prod.fst).Nodup := map_fst_fields r ▸ nodup_fieldNames
  have htexts : ∀ f ∈ r.texts, textField (present r.fields) f.1 = some f.2 := fun f hf =>
    textField_of_lookup (lookup_present hnodup (List.mem_append_left _ (List.mem_map_of_mem hf)))
  have hmaps : ∀ f ∈ r.maps, mapField (present r.fields) f.1 = some f.2 := fun f hf =>
    mapField_of_lookup (lookup_present hnodup (List.mem_append_right _ (List.mem_map_of_mem hf)))
  rw [toJson_eq]
  show (Value.members? _).bind ofMembers? = some r
  rw [Value.members?_object]
  exact ofMembers?_eq_some (fieldsDistinct_present r) htexts hmaps

lemma isSound_of_mem_fields {r : Record} {name : Text} {v : Value}
    (h : (name, some v) ∈ r.fields) : v.IsSound := by
  rcases List.mem_append.mp h with htext | hmap
  · obtain ⟨f, -, hf⟩ := List.mem_map.mp htext
    obtain ⟨-, hv⟩ := Option.ite_none_left_eq_some.mp (congrArg Prod.snd hf)
    obtain rfl : Value.ofText f.2 = v := Option.some.inj hv
    exact Value.isSound_ofText f.2
  · obtain ⟨f, -, hf⟩ := List.mem_map.mp hmap
    obtain ⟨-, hv⟩ := Option.ite_none_left_eq_some.mp (congrArg Prod.snd hf)
    obtain rfl : f.2.toJson = v := Option.some.inj hv
    exact OrderedMap.isSound_toObject Value.isSound_ofText f.2

lemma isSound_toJson (r : Record) : r.toJson.IsSound := by
  rw [toJson_eq, Value.isSound_object_iff, List.forall_mem_map]
  intro e he
  obtain ⟨⟨name, v⟩, hf, hv⟩ := List.mem_filterMap.mp he
  obtain ⟨w, rfl, rfl⟩ := Option.map_eq_some_iff.mp hv
  exact ⟨Units.isSound_ofText name, isSound_of_mem_fields hf⟩

/-- The record that a value holds, or none if the value is null. -/
def optionOfJson? : Value → Option (Option Record)
  | .null => some none
  | v => (ofJson? v).map some

lemma optionOfJson?_optionToJson (o : Option Record) :
    optionOfJson? (optionToJson o) = some o := by
  cases o with
  | none => rfl
  | some r =>
      show (ofJson? r.toJson).map some = some (some r)
      rw [ofJson?_toJson, Option.map_some]

lemma isSound_optionToJson (o : Option Record) : (optionToJson o).IsSound := by
  cases o with
  | none => simp [optionToJson, Value.IsSound, Value.tokens, Token.IsSound]
  | some r => exact isSound_toJson r

lemma optionToJson_eq_null_iff (o : Option Record) : optionToJson o = .null ↔ o = none := by
  cases o with
  | none => exact iff_of_true rfl rfl
  | some r => exact iff_of_false Value.noConfusion nofun

end Record

namespace Batch

/-- The records of a batch, under their ids, from their JSON text. -/
def readRecords? (t : Text) : Option (OrderedMap (Option Record)) :=
  (Value.read? t).bind (OrderedMap.ofObject? Record.optionOfJson?)

/-- The text of a batch is the object of its records. -/
lemma read?_document (b : Batch) (l : Layout) :
    Value.read? (b.toJson.document l) = some (b.records.toObject Record.optionToJson) :=
  Value.read?_document (OrderedMap.isSound_toObject Record.isSound_optionToJson b.records) l

lemma readRecords?_document (b : Batch) (l : Layout) :
    readRecords? (b.toJson.document l) = some b.records := by
  rw [readRecords?, read?_document, Option.bind_some]
  exact OrderedMap.ofObject?_toObject Record.optionOfJson?_optionToJson b.records

end Batch

/-- **What is written is read back**, in every layout: each record as it was, and the records of
each batch under the same ids in the same order. In the object of a batch null stands just for
the ids without a record, and the others have the objects of their records. -/
theorem Record.read?_toJson_document (l : Layout) :
    (∀ r : Record, Record.read? (r.toJson.document l) = some r) ∧
    ∀ b : Batch, Batch.readRecords? (b.toJson.document l) = some b.records ∧
      ∃ members, (Value.read? (b.toJson.document l)).bind Value.members? = some members ∧
        List.Forall₂ (fun m e => m.1 = e.1 ∧ (m.2 = .null ↔ e.2 = none) ∧
          ∀ r ∈ e.2, Record.ofJson? m.2 = some r) members b.records.entries := by
  refine ⟨fun r => ?_, fun b => ⟨b.readRecords?_document l,
    b.records.entries.map fun e => (e.1, optionToJson e.2), ?_, ?_⟩⟩
  · rw [Record.read?, Value.read?_document r.isSound_toJson, Option.bind_some, ofJson?_toJson]
  · rw [b.read?_document, Option.bind_some]
    exact OrderedMap.members?_toObject optionToJson b.records
  · rw [List.forall₂_map_left_iff, List.forall₂_same]
    rintro ⟨id, o⟩ -
    refine ⟨rfl, optionToJson_eq_null_iff o, ?_⟩
    rintro r rfl
    exact ofJson?_toJson r

end DocComment
