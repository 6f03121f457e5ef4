import DocComment.Text.CharClass

/-!
Reading a text piece by piece. A step looks at what is left and either gives a piece and what
is left after it, or says that the pieces end here. A step that takes nothing off the text is a
failure, so the loop ends whatever the step does.
-/

namespace DocComment.Text

/-- What a step of reading has found. -/
inductive Step (α : Type) where
  | more (piece : α) (rest : Text)
  | stop (rest : Text)

/-- Repeats a step until it stops, and gives the pieces and what is left. -/
def collect {α : Type} (step : Text → Option (Step α)) (t : Text) : Option (List α × Text) :=
  match step t with
  | none => none
  | some (.stop rest) => some ([], rest)
  | some (.more piece rest) =>
    if rest.length < t.length then
      match collect step rest with
      | some (pieces, left) => some (piece :: pieces, left)
      | none => none
    else none
termination_by t.length

end DocComment.Text
