import DocComment.Text.Numeral

/-!
What can be wrong with a document, one constructor per cause, and the wording of each in
`Error.message`.
-/

namespace DocComment.Xml

/-- A piece of markup that has to be closed. -/
inductive Part where
  | tag
  /-- An attribute value, with the quotation mark that opened it. -/
  | quotation (quote : Char)
  | reference
  | cdata
  | comment
  | doctype
  | instruction
  | declaration
  deriving DecidableEq, Repr

/-- Why a numeric reference in an attribute value names no character. -/
inductive CodeFault where
  | signed
  | numeral (fault : Text.NumeralFault)
  | null
  | notScalar (code : Nat)
  deriving DecidableEq, Repr

/-- Why the references in an attribute value cannot be resolved. Ranges are byte offsets in the
value. -/
inductive EscapeFault where
  | unterminated (start stop : Nat)
  | unknownEntity (start stop : Nat) (name : Text)
  | badCode (fault : CodeFault)
  deriving DecidableEq, Repr

/-- Why the attributes of a tag cannot be read. -/
inductive AttributeFault where
  | noEquals
  | duplicate (earlier : Nat)
  | noValue
  | unquoted
  | unclosed (quote : Char)
  deriving DecidableEq, Repr

/-- What is wrong with a document. -/
inductive Error where
  | unclosed (part : Part)
  | unknownMarkup
  | namelessDoctype
  | strayEnd (found : Text)
  | mismatchedEnd (expected found : Text)
  | badEscape (fault : EscapeFault)
  /-- The position is a byte offset in the tag. -/
  | badAttribute (position : Nat) (fault : AttributeFault)
  | unknownEntity (name : Text)
  | badCharacterReference (name : Text)
  | unclosedElement (name : Text)
  | missingRoot
  | multipleRoots (name : Text)
  | textOutsideRoot
  deriving DecidableEq, Repr

/-! ### Wording -/

/-- A text between grave accents. -/
def accented (t : Text) : Text :=
  '\x60' :: t ++ ['\x60']

/-- An end tag. -/
def endTagText (name : Text) : Text :=
  "</".toList ++ name ++ ">".toList

/-- The name of a part. -/
def Part.label : Part → Text
  | tag => "tag".toList
  | quotation _ => "attribute value".toList
  | reference => "entity or character reference".toList
  | cdata => "CDATA".toList
  | comment => "comment".toList
  | doctype => "DOCTYPE".toList
  | instruction => "processing instruction".toList
  | declaration => "XML declaration".toList

/-- The mark that closes a part. -/
def Part.closing : Part → Text
  | tag => ">".toList
  | quotation quote => [quote]
  | reference => ";".toList
  | cdata => "]]>".toList
  | comment => "-->".toList
  | doctype => ">".toList
  | instruction => "?>".toList
  | declaration => "?>".toList

/-- A reference without its end spoils the document, any other part the markup. -/
def Part.area : Part → Text
  | reference => "ill-formed document: ".toList
  | _ => "syntax error: ".toList

def Part.message (part : Part) : Text :=
  part.area ++ part.label ++ " not closed: ".toList ++ accented part.closing ++
    " not found before end of input".toList

def numeralMessage : Text.NumeralFault → Text
  | .empty => "cannot parse integer from empty string".toList
  | .notDigit => "invalid digit found in string".toList
  | .tooLarge => "number too large to fit in target type".toList

def CodeFault.message : CodeFault → Text
  | signed => "unexpected number sign".toList
  | numeral fault => numeralMessage fault
  | null => "0x0 character is not permitted in XML".toList
  | notScalar code => accented (Text.decimal code) ++ " is not a valid codepoint".toList

/-- A range of byte offsets. -/
def rangeText (start stop : Nat) : Text :=
  Text.decimal start ++ "..".toList ++ Text.decimal stop

def EscapeFault.message : EscapeFault → Text
  | unterminated start stop =>
    "Error while escaping character at range ".toList ++ rangeText start stop ++
      ": Cannot find ';' after '&'".toList
  | unknownEntity start stop name =>
    "at ".toList ++ rangeText start stop ++ ": unrecognized entity ".toList ++ accented name
  | badCode fault => "invalid character reference: ".toList ++ fault.message

def AttributeFault.message : AttributeFault → Text
  | noEquals =>
    "attribute key must be directly followed by ".toList ++ accented ['='] ++
      " or space".toList
  | duplicate earlier =>
    "duplicated attribute, previous declaration at position ".toList ++ Text.decimal earlier
  | noValue => accented ['='] ++ " must be followed by an attribute value".toList
  | unquoted =>
    "attribute value must be enclosed in ".toList ++ accented ['"'] ++ " or ".toList ++
      accented ['\'']
  | unclosed quote =>
    "missing closing quote ".toList ++ accented [quote] ++ " in attribute value".toList

/-- The wording of an error. -/
def Error.message : Error → Text
  | unclosed part => "XML parse error: ".toList ++ part.message
  | unknownMarkup =>
    "XML parse error: syntax error: unknown or missed symbol in markup".toList
  | namelessDoctype =>
    "XML parse error: ill-formed document: ".toList ++ accented "<!DOCTYPE>".toList ++
      " declaration does not contain a name of a document type".toList
  | strayEnd found =>
    "XML parse error: ill-formed document: close tag ".toList ++ accented (endTagText found) ++
      " does not match any open tag".toList
  | mismatchedEnd expected found =>
    "XML parse error: ill-formed document: expected ".toList ++
      accented (endTagText expected) ++ ", but ".toList ++ accented (endTagText found) ++
      " was found".toList
  | badEscape fault => "XML parse error: ".toList ++ fault.message
  | badAttribute position fault =>
    "XML attribute error: position ".toList ++ Text.decimal position ++ ": ".toList ++
      fault.message
  | unknownEntity name =>
    "unknown entity reference ".toList ++ accented ('&' :: name ++ [';'])
  | badCharacterReference name =>
    "invalid character reference ".toList ++ accented ('&' :: name ++ [';'])
  | unclosedElement name =>
    "unexpected end of input inside ".toList ++ accented ('<' :: name ++ ['>'])
  | missingRoot => "document has no root element".toList
  | multipleRoots name =>
    "document has more than one root element (found ".toList ++
      accented ('<' :: name ++ ['>']) ++ ")".toList
  | textOutsideRoot => "text content outside the root element".toList

end DocComment.Xml
