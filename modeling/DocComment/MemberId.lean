import DocComment.Text.Space

/-!
Member ids, the way a comment names a declaration: a letter for the kind of the declaration,
a colon and the name, as in T:System.String. The kind may be missing.
-/

namespace DocComment.MemberId

/-- The marks for the kinds of declarations: namespace, type, field, property, method, event,
and error for a reference that could not be resolved. -/
def kinds : List Char :=
  ['N', 'T', 'F', 'P', 'M', 'E', '!']

/-- An id without the mark of its kind. One mark at most is dropped, and only from the very
beginning; a blank id has no name at all. -/
def name (id : Text) : Text :=
  if Text.isBlank id then []
  else
    match id with
    | kind :: ':' :: rest => if kind ∈ kinds then rest else id
    | _ => id

/-- A marked id names what follows the mark. -/
theorem name_cons_colon {kind : Char} (h : kind ∈ kinds) (rest : Text) :
    name (kind :: ':' :: rest) = rest := by
  have hk : Text.isSpace kind = false := by
    simp only [kinds, List.mem_cons, List.not_mem_nil, or_false] at h
    rcases h with h | h | h | h | h | h | h <;> subst h <;> decide
  simp [name, Text.isBlank, hk, h]

end DocComment.MemberId
