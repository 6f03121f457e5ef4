import DocComment.Text.Space
import DocComment.Xml.Error
import DocComment.Xml.Token.Doctype

/-!
The tokens of a document, and cutting a text into them.

* **Three kinds of place.** An ampersand begins a reference, an angle bracket begins markup, and
  anything else is text up to the next of the two (`Token.next?`).
* **Nothing is judged here** but whether each piece of markup is closed: names, nesting and
  references are for the document.
* **The first fault ends the cutting.** `scan` gives the tokens before it and the fault.
-/

namespace DocComment.Xml

/-- A token of a document. -/
inductive Token where
  | text (text : Text)
  | cdata (text : Text)
  | reference (name : Text)
  /-- A start tag, with what is written between its brackets. -/
  | startTag (source : Text)
  /-- A tag that closes itself, with what is written before the slash. -/
  | emptyTag (source : Text)
  | endTag (name : Text)
  /-- A comment, an instruction, a declaration or a document type. -/
  | silent
  deriving DecidableEq, Repr, Inhabited

namespace Token

/-- A token and the text after it. -/
structure Cut where
  token : Token
  rest : Text

/-! ### Markup -/

/-- A token up to a closing mark. -/
def upTo (part : Part) (token : Text → Token) (t : Text) : Except Error Cut :=
  match Text.breakOn part.closing t with
  | some (body, rest) => .ok ⟨token body, rest⟩
  | none => .error (.unclosed part)

/-- A tag up to the first closing bracket outside quotations. -/
def upToBracket (token : Text → Token) (t : Text) : Except Error Cut :=
  match Text.breakUnquoted '>' none t with
  | .ok (body, rest) => .ok ⟨token body, rest⟩
  | .error none => .error (.unclosed .tag)
  | .error (some quote) => .error (.unclosed (.quotation quote))

/-- Whether a text begins with a word, whose letters may be of either case. -/
def beginsWith (word t : Text) : Bool :=
  word == (t.take word.length).map Char.toUpper

/-- The document type, given what follows the exclamation mark. It has to name something. -/
def doctype (t : Text) : Except Error Cut :=
  if beginsWith "DOCTYPE".toList t then
    match Doctype.after? none (t.drop 7) with
    | none => .error (.unclosed .doctype)
    | some rest =>
      if ">".toList.isPrefixOf ((t.drop 7).dropWhile Text.isMarkupSpace) then
        .error .namelessDoctype
      else .ok ⟨silent, rest⟩
  else .error (.unclosed .doctype)

/-- Markup that begins with an exclamation mark, given what follows the mark. One character
decides what it has to be. -/
def declaration (t : Text) : Except Error Cut :=
  match t with
  | '[' :: _ =>
    match Text.dropMark? "[CDATA[".toList t with
    | some body => upTo .cdata cdata body
    | none => .error (.unclosed .cdata)
  | '-' :: _ =>
    match Text.dropMark? "--".toList t with
    | some body => upTo .comment (fun _ => silent) body
    | none => .error (.unclosed .comment)
  | 'D' :: _ => doctype t
  | 'd' :: _ => doctype t
  | _ => .error .unknownMarkup

/-- What an instruction counts as when it is not closed: an XML declaration if its name is
xml. -/
def instructionPart (t : Text) : Part :=
  match Text.dropMark? "xml".toList t with
  | some [] => .declaration
  | some (c :: _) => if c = '?' ∨ Text.isMarkupSpace c then .declaration else .instruction
  | none => .instruction

/-- An instruction, given what follows its opening question mark, which cannot close it. -/
def instruction (t : Text) : Except Error Cut :=
  match t with
  | '>' :: _ => .error (.unclosed .instruction)
  | _ => upTo (instructionPart t) (fun _ => silent) t

/-- The name in an end tag. White space after it does not count, unless there is nothing else. -/
def endName (t : Text) : Text :=
  let name := (t.reverse.dropWhile Text.isMarkupSpace).reverse
  if name.isEmpty then t else name

/-- The token of a start tag. -/
def openingTag (source : Text) : Token :=
  if source.getLast? = some '/' then emptyTag source.dropLast else startTag source

/-- Markup, given what follows its opening angle bracket. -/
def markup (t : Text) : Except Error Cut :=
  match t with
  | [] => .error (.unclosed .tag)
  | '!' :: rest => declaration rest
  | '?' :: rest => instruction rest
  | '/' :: rest => upToBracket (fun name => endTag (endName name)) rest
  | _ => upToBracket openingTag t

/-! ### References and text -/

/-- Whether a character ends the name of a reference in content. -/
def endsName (c : Char) : Bool :=
  c == ';' || c == '&' || c == '<'

/-- A reference, given what follows its ampersand. -/
def referenceAfter (t : Text) : Except Error Cut :=
  match t.dropWhile (!endsName ·) with
  | ';' :: rest => .ok ⟨reference (t.takeWhile (!endsName ·)), rest⟩
  | _ => .error (.unclosed .reference)

/-- Whether a character is ordinary text. -/
def isPlain (c : Char) : Bool :=
  c != '<' && c != '&'

/-- The first token of a text that begins with the character `c`. -/
def next (c : Char) (t : Text) : Except Error Cut :=
  if c = '<' then markup t
  else if c = '&' then referenceAfter t
  else .ok ⟨text (c :: t.takeWhile isPlain), t.dropWhile isPlain⟩

/-! ### Every token takes something -/

theorem length_of_upTo {part : Part} {token : Text → Token} {t : Text} {cut : Cut}
    (h : upTo part token t = .ok cut) : cut.rest.length ≤ t.length := by
  unfold upTo at h
  split at h
  · rename_i hb
    cases h
    have := Text.length_of_breakOn hb
    simp only
    omega
  · cases h

theorem length_of_upToBracket {token : Text → Token} {t : Text} {cut : Cut}
    (h : upToBracket token t = .ok cut) : cut.rest.length ≤ t.length := by
  unfold upToBracket at h
  split at h
  · rename_i hb
    cases h
    have := Text.length_of_breakUnquoted hb
    simp only
    omega
  · cases h
  · cases h

theorem length_of_doctype {t : Text} {cut : Cut} (h : doctype t = .ok cut) :
    cut.rest.length ≤ t.length := by
  unfold doctype at h
  split at h
  · split at h
    · cases h
    · rename_i hd
      split at h
      · cases h
      · cases h
        have := Doctype.length_of_after? hd
        rw [List.length_drop] at this
        simp only
        omega
  · cases h

theorem length_of_declaration {t : Text} {cut : Cut} (h : declaration t = .ok cut) :
    cut.rest.length ≤ t.length := by
  unfold declaration at h
  split at h
  · split at h
    · rename_i hd
      have h1 := Text.length_of_dropMark? hd
      have h2 := length_of_upTo h
      omega
    · cases h
  · split at h
    · rename_i hd
      have h1 := Text.length_of_dropMark? hd
      have h2 := length_of_upTo h
      omega
    · cases h
  · exact length_of_doctype h
  · exact length_of_doctype h
  · cases h

theorem length_of_markup {t : Text} {cut : Cut} (h : markup t = .ok cut) :
    cut.rest.length ≤ t.length := by
  unfold markup at h
  split at h
  · cases h
  · have := length_of_declaration h
    simp only [List.length_cons]
    omega
  · unfold instruction at h
    split at h
    · cases h
    · have := length_of_upTo h
      simp only [List.length_cons]
      omega
  · have := length_of_upToBracket h
    simp only [List.length_cons]
    omega
  · exact length_of_upToBracket h

/-- Each token takes at least one character. -/
theorem length_of_next {c : Char} {t : Text} {cut : Cut} (h : next c t = .ok cut) :
    cut.rest.length ≤ t.length := by
  unfold next at h
  split at h
  · exact length_of_markup h
  · split at h
    · unfold referenceAfter at h
      split at h
      · rename_i hd
        cases h
        have := (List.dropWhile_suffix (!endsName ·) (l := t)).length_le
        rw [hd, List.length_cons] at this
        simp only
        omega
      · cases h
    · cases h
      exact (List.dropWhile_suffix _).length_le

end Token

/-! ### Cutting a text -/

/-- The tokens of a text up to its end or up to the first fault. -/
structure Scan where
  tokens : List Token
  fault : Option Error

/-- Cuts a text into tokens. -/
def scan (t : Text) : Scan :=
  match t with
  | [] => ⟨[], none⟩
  | c :: rest =>
    match _h : Token.next c rest with
    | .error e => ⟨[], some e⟩
    | .ok cut =>
      let tail := scan cut.rest
      ⟨cut.token :: tail.tokens, tail.fault⟩
termination_by t.length
decreasing_by
  have := Token.length_of_next _h
  simp only [List.length_cons]
  omega

end DocComment.Xml
