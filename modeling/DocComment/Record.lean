import DocComment.OrderedMap

/-!
The record of a documentation comment: five texts and five maps from names to texts.
-/

namespace DocComment

/-- What a documentation comment says. -/
structure Record where
  summary : Text := []
  remarks : Text := []
  returns : Text := []
  value : Text := []
  /-- The example of use. -/
  sample : Text := []
  exceptions : OrderedMap Text := .empty
  params : OrderedMap Text := .empty
  permissions : OrderedMap Text := .empty
  typeParams : OrderedMap Text := .empty
  seeAlsos : OrderedMap Text := .empty
  deriving DecidableEq, Repr, Inhabited

namespace Record

/-- Whether the comment says nothing. -/
def isEmpty (r : Record) : Bool :=
  [r.summary, r.remarks, r.returns, r.value, r.sample].all List.isEmpty &&
    [r.exceptions, r.params, r.permissions, r.typeParams, r.seeAlsos].all OrderedMap.isEmpty

end Record

end DocComment
