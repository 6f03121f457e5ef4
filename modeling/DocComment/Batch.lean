import DocComment.Comment
import DocComment.Record.Json

/-!
Reading many comments at once, each under the id of its declaration.

* **Apart.** Each comment is read on its own; one that is malformed leaves no record and is
  listed with what is wrong with it.
* **Failing fast.** On demand the first malformed comment stops the batch instead.
-/

namespace DocComment

/-- Comments by the ids of their declarations; a declaration may have none. -/
abbrev Comments := OrderedMap (Option Text)

/-- A malformed comment and what is wrong with it. -/
structure Failure where
  id : Text
  error : Xml.Error
  deriving DecidableEq, Repr

/-- What has become of a batch. -/
structure Batch where
  records : OrderedMap (Option Record) := .empty
  failures : List Failure := []

namespace Batch

/-- Takes in one comment. -/
def take (failFast : Bool) (b : Batch) (id : Text) (comment : Option Text) :
    Except Failure Batch :=
  match Comment.read comment with
  | .ok r => .ok { b with records := b.records.insert id r }
  | .error e =>
    if failFast then .error ⟨id, e⟩
    else .ok { records := b.records.insert id none, failures := b.failures ++ [⟨id, e⟩] }

/-- Takes in comments one after another. -/
def takeAll (failFast : Bool) (b : Batch) : List (Text × Option Text) → Except Failure Batch
  | [] => .ok b
  | (id, comment) :: rest =>
    match b.take failFast id comment with
    | .ok next => takeAll failFast next rest
    | .error failure => .error failure

/-- Reads a batch of comments. -/
def run (failFast : Bool) (comments : Comments) : Except Failure Batch :=
  takeAll failFast {} comments.entries

/-- The records as an object, with null where there is none. -/
def toJson (b : Batch) : Json.Value :=
  .object (b.records.entries.map fun e => (.ofText e.1, Record.optionToJson e.2))

end Batch

/-- The comment that a value holds: a string, or null for none. -/
def commentOfJson? : Json.Value → Option (Option Text)
  | .null => some none
  | v => v.text?.map some

/-- The comments that an object holds. An id that comes again replaces its comment. -/
def Comments.ofJson? (v : Json.Value) : Option Comments := do
  let members ← v.members?
  let entries ← members.mapM fun m => (commentOfJson? m.2).map fun c => (m.1, c)
  return .ofList entries

end DocComment
