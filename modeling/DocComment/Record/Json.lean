import DocComment.Json.Layout
import DocComment.Json.Structure
import DocComment.Record

/-!
Records as JSON values.

* **Writing.** A record is an object with a member for each of its fields that is not empty, in
  a fixed order; maps are objects in their own order.
* **Reading.** Members may come in any order, missing ones are empty, unknown ones are passed
  over, and none that is known may come twice. An array is read as the fields in their order.
-/

namespace DocComment

open Json

/-! ### Maps of texts -/

/-- A map of texts as an object. -/
def OrderedMap.toJson (m : OrderedMap Text) : Value :=
  .object (m.entries.map fun e => (.ofText e.1, .ofText e.2))

/-- The map of texts that an object holds. A name that comes again replaces its value. -/
def OrderedMap.ofJson? (v : Value) : Option (OrderedMap Text) := do
  let members ← v.members?
  let entries ← members.mapM fun m => m.2.text?.map fun t => (m.1, t)
  return .ofList entries

namespace Record

/-- The names of the fields, in the order in which they are written. -/
def fieldNames : List Text :=
  ["Summary", "Remarks", "Returns", "Value", "Example", "Exceptions", "Params", "Permissions",
    "TypeParams", "SeeAlsos"].map String.toList

/-! ### Writing -/

/-- The member for a text, unless it is empty. -/
def textMember (name : String) (t : Text) : List (Units × Value) :=
  if t.isEmpty then [] else [(.ofText name.toList, .ofText t)]

/-- The member for a map, unless it is empty. -/
def mapMember (name : String) (m : OrderedMap Text) : List (Units × Value) :=
  if m.isEmpty then [] else [(.ofText name.toList, m.toJson)]

/-- A record as an object. -/
def toJson (r : Record) : Value :=
  .object (textMember "Summary" r.summary ++ textMember "Remarks" r.remarks ++
    textMember "Returns" r.returns ++ textMember "Value" r.value ++
    textMember "Example" r.sample ++ mapMember "Exceptions" r.exceptions ++
    mapMember "Params" r.params ++ mapMember "Permissions" r.permissions ++
    mapMember "TypeParams" r.typeParams ++ mapMember "SeeAlsos" r.seeAlsos)

/-- A record as an object, or null if there is none. -/
def optionToJson : Option Record → Value
  | none => .null
  | some r => r.toJson

/-! ### Reading -/

/-- The text of a member, empty if there is no such member; nothing if it is not a string. -/
def textField (members : List (Text × Value)) (name : String) : Option Text :=
  match members.lookup name.toList with
  | none => some []
  | some v => v.text?

/-- The map of a member, empty if there is no such member; nothing if it holds anything but
strings. -/
def mapField (members : List (Text × Value)) (name : String) : Option (OrderedMap Text) :=
  match members.lookup name.toList with
  | none => some .empty
  | some v => OrderedMap.ofJson? v

/-- Whether no field is given twice. -/
def fieldsDistinct (members : List (Text × Value)) : Bool :=
  fieldNames.all fun name => (members.map Prod.fst).count name ≤ 1

/-- The record with given members. -/
def ofMembers? (members : List (Text × Value)) : Option Record :=
  if fieldsDistinct members then do
    let summary ← textField members "Summary"
    let remarks ← textField members "Remarks"
    let returns ← textField members "Returns"
    let value ← textField members "Value"
    let sample ← textField members "Example"
    let exceptions ← mapField members "Exceptions"
    let params ← mapField members "Params"
    let permissions ← mapField members "Permissions"
    let typeParams ← mapField members "TypeParams"
    let seeAlsos ← mapField members "SeeAlsos"
    return {
      summary := summary, remarks := remarks, returns := returns, value := value,
      sample := sample, exceptions := exceptions, params := params, permissions := permissions,
      typeParams := typeParams, seeAlsos := seeAlsos }
  else none

/-- The record that a value holds. -/
def ofJson? : Value → Option Record
  | .array items =>
    if items.length ≤ fieldNames.length then ofMembers? (fieldNames.zip items) else none
  | v => v.members?.bind ofMembers?

/-- Reads a record from its JSON text. -/
def read? (t : Text) : Option Record :=
  (Value.read? t).bind ofJson?

end Record

end DocComment
