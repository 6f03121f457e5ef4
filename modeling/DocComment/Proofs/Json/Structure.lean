import DocComment.Json.Structure
import DocComment.Proofs.Json.Spelling

/-!
The tokens of a value, and the value back from its tokens.

* **Writing.** `tokens` is the value without its layout: what every text of the value, compact or
  indented, is cut into.
* **Reading back.** From any place where a value may begin, the tokens of a value lead to the
  place where this value is finished, whatever comes behind (`steps_tokens`). In an open container
  the same holds of the items and members that are left, with those already read in the frame.
* **Texts.** So each text that spells the tokens of a value is read as this value
  (`read?_of_spelling`).
-/

namespace DocComment.Json

namespace Value

mutual

/-- The tokens of a value. -/
def tokens : Value → List Token
  | .null => [.null]
  | .bool b => [.bool b]
  | .number w => [.number w]
  | .string units => [.string units]
  | .array [] => [.openArray, .closeArray]
  | .array (v :: vs) => .openArray :: (tokens v ++ (moreItemTokens vs ++ [.closeArray]))
  | .object [] => [.openObject, .closeObject]
  | .object ((name, v) :: ms) =>
    .openObject :: .string name :: .colon ::
      (tokens v ++ (moreMemberTokens ms ++ [.closeObject]))

/-- The tokens of the items of an array after the first. -/
def moreItemTokens : List Value → List Token
  | [] => []
  | v :: vs => .comma :: (tokens v ++ moreItemTokens vs)

/-- The tokens of the members of an object after the first. -/
def moreMemberTokens : List (Units × Value) → List Token
  | [] => []
  | (name, v) :: ms => .comma :: .string name :: .colon :: (tokens v ++ moreMemberTokens ms)

end

end Value

namespace Place

open Value

/-- Where an array may also end, its first item is read as anywhere else: no value begins with a
closing bracket. -/
lemma steps_itemOrEnd (v : Value) (outer : List Frame) (ts : List Token) :
    (itemOrEnd outer).steps (v.tokens ++ ts) =
      (value (.array [] :: outer)).steps (v.tokens ++ ts) := by
  cases v with
  | null => rfl
  | bool b => rfl
  | number w => rfl
  | string units => rfl
  | array items =>
      cases items with
      | nil => rfl
      | cons v vs => rfl
  | object members =>
      cases members with
      | nil => rfl
      | cons m ms => rfl

mutual

/-- **The tokens of a value are read as this value**, whatever is open around it and whatever
comes behind. -/
theorem steps_tokens (v : Value) (outer : List Frame) (ts : List Token) :
    (value outer).steps (v.tokens ++ ts) = (done v outer).steps ts := by
  cases v with
  | null => rfl
  | bool b => rfl
  | number w => rfl
  | string units => rfl
  | array items =>
      cases items with
      | nil => rfl
      | cons v vs =>
          calc (value outer).steps ((Value.array (v :: vs)).tokens ++ ts)
              = (itemOrEnd outer).steps (v.tokens ++ (moreItemTokens vs ++ .closeArray :: ts)) := by
                simp only [Value.tokens, List.cons_append, List.append_assoc, List.nil_append]
                rfl
            _ = (done v (.array [] :: outer)).steps (moreItemTokens vs ++ .closeArray :: ts) := by
                rw [steps_itemOrEnd, steps_tokens v]
            _ = (done (.array (v :: vs)) outer).steps ts := steps_moreItemTokens vs v [] outer ts
  | object members =>
      cases members with
      | nil => rfl
      | cons m ms =>
          obtain ⟨name, v⟩ := m
          calc (value outer).steps ((Value.object ((name, v) :: ms)).tokens ++ ts)
              = (value (.object [] name :: outer)).steps
                  (v.tokens ++ (moreMemberTokens ms ++ .closeObject :: ts)) := by
                simp only [Value.tokens, List.cons_append, List.append_assoc, List.nil_append]
                rfl
            _ = (done v (.object [] name :: outer)).steps
                  (moreMemberTokens ms ++ .closeObject :: ts) := steps_tokens v _ _
            _ = (done (.object ((name, v) :: ms)) outer).steps ts :=
                steps_moreMemberTokens ms name v [] outer ts

/-- The items that are left join those read before. -/
theorem steps_moreItemTokens (vs : List Value) (v : Value) (items : List Value)
    (outer : List Frame) (ts : List Token) :
    (done v (.array items :: outer)).steps (moreItemTokens vs ++ .closeArray :: ts) =
      (done (.array (items.reverse ++ v :: vs)) outer).steps ts := by
  cases vs with
  | nil =>
      rw [← List.reverse_cons]
      rfl
  | cons w vs =>
      calc (done v (.array items :: outer)).steps (moreItemTokens (w :: vs) ++ .closeArray :: ts)
          = (value (.array (v :: items) :: outer)).steps
              (w.tokens ++ (moreItemTokens vs ++ .closeArray :: ts)) := by
            simp only [moreItemTokens, List.cons_append, List.append_assoc]
            rfl
        _ = (done w (.array (v :: items) :: outer)).steps
              (moreItemTokens vs ++ .closeArray :: ts) := steps_tokens w _ _
        _ = (done (.array ((v :: items).reverse ++ w :: vs)) outer).steps ts :=
            steps_moreItemTokens vs w (v :: items) outer ts
        _ = (done (.array (items.reverse ++ v :: w :: vs)) outer).steps ts := by
            rw [List.reverse_cons, List.append_assoc, List.singleton_append]

/-- The members that are left join those read before. -/
theorem steps_moreMemberTokens (ms : List (Units × Value)) (name : Units) (v : Value)
    (members : List (Units × Value)) (outer : List Frame) (ts : List Token) :
    (done v (.object members name :: outer)).steps (moreMemberTokens ms ++ .closeObject :: ts) =
      (done (.object (members.reverse ++ (name, v) :: ms)) outer).steps ts := by
  cases ms with
  | nil =>
      rw [← List.reverse_cons]
      rfl
  | cons m ms =>
      obtain ⟨next, w⟩ := m
      calc (done v (.object members name :: outer)).steps
            (moreMemberTokens ((next, w) :: ms) ++ .closeObject :: ts)
          = (value (.object ((name, v) :: members) next :: outer)).steps
              (w.tokens ++ (moreMemberTokens ms ++ .closeObject :: ts)) := by
            simp only [moreMemberTokens, List.cons_append, List.append_assoc]
            rfl
        _ = (done w (.object ((name, v) :: members) next :: outer)).steps
              (moreMemberTokens ms ++ .closeObject :: ts) := steps_tokens w _ _
        _ = (done (.object (((name, v) :: members).reverse ++ (next, w) :: ms)) outer).steps ts :=
            steps_moreMemberTokens ms next w ((name, v) :: members) outer ts
        _ = (done (.object (members.reverse ++ (name, v) :: (next, w) :: ms)) outer).steps ts := by
            rw [List.reverse_cons, List.append_assoc, List.singleton_append]

end

end Place

namespace Value

/-- A value is what its tokens stand for. -/
theorem ofTokens?_tokens (v : Value) : ofTokens? v.tokens = some v := by
  have h := Place.steps_tokens v [] []
  rw [List.append_nil] at h
  rw [ofTokens?, h]
  rfl

/-- A text that spells the tokens of a value is read as this value. -/
theorem read?_of_spelling {v : Value} {t : Text} (h : Spelling v.tokens t) : read? t = some v := by
  rw [read?, h.tokens?_eq, Option.bind_some, ofTokens?_tokens]

end Value

end DocComment.Json
