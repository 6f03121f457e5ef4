import DocComment.Json.Token

/-!
From JSON tokens to values, one token at a time.

* **Open containers.** A `Frame` is an array or an object that has been opened, with what it
  holds so far.
* **What may come.** A `Place` says which tokens may come next. After a comma a value or a name
  has to follow, so nothing closes right after one.
* **The end.** A text is a value if its tokens lead to a place where one value is finished and
  nothing is open.
-/

namespace DocComment.Json

/-- A container that has been opened. What it holds is listed last first. -/
inductive Frame where
  | array (items : List Value)
  /-- The value of the member `name` is being read. -/
  | object (members : List (Units × Value)) (name : Units)
  deriving Repr

/-- What may come next, inside containers listed from the inside out. -/
inductive Place where
  | value (outer : List Frame)
  | itemOrEnd (outer : List Frame)
  | nameOrEnd (outer : List Frame)
  | name (members : List (Units × Value)) (outer : List Frame)
  | colon (members : List (Units × Value)) (name : Units) (outer : List Frame)
  /-- A value has just been finished. -/
  | done (v : Value) (outer : List Frame)
  deriving Repr

namespace Place

/-- A token where a value has to begin. -/
def beginValue (outer : List Frame) : Token → Option Place
  | .null => some (done .null outer)
  | .bool b => some (done (.bool b) outer)
  | .number written => some (done (.number written) outer)
  | .string units => some (done (.string units) outer)
  | .openArray => some (itemOrEnd outer)
  | .openObject => some (nameOrEnd outer)
  | _ => none

/-- A token after a finished value. -/
def afterValue (v : Value) : List Frame → Token → Option Place
  | .array items :: outer, .comma => some (value (.array (v :: items) :: outer))
  | .array items :: outer, .closeArray => some (done (.array (v :: items).reverse) outer)
  | .object members n :: outer, .comma => some (name ((n, v) :: members) outer)
  | .object members n :: outer, .closeObject =>
    some (done (.object ((n, v) :: members).reverse) outer)
  | _, _ => none

/-- Takes one token further; none if it may not come here. -/
def step : Place → Token → Option Place
  | value outer, token => beginValue outer token
  | itemOrEnd outer, .closeArray => some (done (.array []) outer)
  | itemOrEnd outer, token => beginValue (.array [] :: outer) token
  | nameOrEnd outer, .closeObject => some (done (.object []) outer)
  | nameOrEnd outer, .string n => some (colon [] n outer)
  | nameOrEnd _, _ => none
  | name members outer, .string n => some (colon members n outer)
  | name _ _, _ => none
  | colon members n outer, .colon => some (value (.object members n :: outer))
  | colon _ _ _, _ => none
  | done v outer, token => afterValue v outer token

/-- Takes tokens further, from left to right. -/
def steps : Place → List Token → Option Place
  | p, [] => some p
  | p, token :: rest => (p.step token).bind fun next => steps next rest

/-- The value, at the end of the tokens. -/
def finish? : Place → Option Value
  | done v [] => some v
  | _ => none

end Place

/-- The value that tokens stand for. -/
def Value.ofTokens? (tokens : List Token) : Option Value :=
  ((Place.value []).steps tokens).bind Place.finish?

/-- Reads a JSON text: one value and nothing else. -/
def Value.read? (t : Text) : Option Value :=
  (tokens? t).bind Value.ofTokens?

end DocComment.Json
