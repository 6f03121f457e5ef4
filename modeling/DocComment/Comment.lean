import DocComment.Section
import DocComment.Xml.Document

/-!
Reading a documentation comment: from the text of the comment to its record.
-/

namespace DocComment

namespace Comment

/-- Whether a text holds no comment: nothing but white space, or a comment that has been
commented out. -/
def isVoid (t : Text) : Bool :=
  Text.isBlank t || "<!--".toList.isPrefixOf t

/-- The record of a comment, if there is one. -/
def read : Option Text → Except Xml.Error (Option Record)
  | none => .ok none
  | some t =>
    if isVoid t then .ok none
    else (Xml.readDocument t).map fun root => some (Record.ofRoot root)

end Comment

end DocComment
