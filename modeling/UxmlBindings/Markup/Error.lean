import UxmlBindings.Files.Fault

/-!
# Errors of markup documents

Why a document is refused. Every cause is a constructor of its own; the wording is decided in the
`message` functions alone. Positions count bytes from the start of a tag's contents, or of an
attribute value for escapes.
-/

namespace UxmlBindings.Markup

/-- Constructs of markup that run up to a mark of their own. -/
inductive Construct where
  | tag
  | comment
  | characterData
  | documentType
  | declaration
  | instruction
  /-- An attribute value inside the given quotes. -/
  | value (quote : Char)
  deriving DecidableEq, Repr

/-- What a construct is called. -/
def Construct.name : Construct → String
  | .tag => "tag"
  | .comment => "comment"
  | .characterData => "CDATA"
  | .documentType => "DOCTYPE"
  | .declaration => "XML declaration"
  | .instruction => "processing instruction"
  | .value _ => "attribute value"

/-- The mark that closes a construct. -/
def Construct.closing : Construct → String
  | .tag => ">"
  | .comment => "-->"
  | .characterData => "]]>"
  | .documentType => ">"
  | .declaration => "?>"
  | .instruction => "?>"
  | .value quote => quote.toString

/-- Faults of the markup itself, found while it is cut into tags. -/
inductive MarkupFault where
  | unclosed (construct : Construct)
  | unknownMarkup
  | documentTypeWithoutName
  | wrongClosing (expected found : String)
  | strayClosing (found : String)
  | unclosedReference
  deriving DecidableEq, Repr

/-- The wording of a fault of the markup. -/
def MarkupFault.message : MarkupFault → String
  | .unclosed construct =>
    "syntax error: " ++ construct.name ++ " not closed: `" ++ construct.closing ++
      "` not found before end of input"
  | .unknownMarkup => "syntax error: unknown or missed symbol in markup"
  | .documentTypeWithoutName =>
    "ill-formed document: `<!DOCTYPE>` declaration does not contain a name of a document type"
  | .wrongClosing expected found =>
    "ill-formed document: expected `</" ++ expected ++ ">`, but `</" ++ found ++ ">` was found"
  | .strayClosing found =>
    "ill-formed document: close tag `</" ++ found ++ ">` does not match any open tag"
  | .unclosedReference =>
    "ill-formed document: entity or character reference not closed: `;` not found before end of input"

/-- Faults in the attributes of a tag, each with its position. -/
inductive AttributeFault where
  | keyWithoutEquals (position : Nat)
  | missingValue (position : Nat)
  | unquotedValue (position : Nat)
  | unclosedValue (position : Nat) (quote : Char)
  deriving DecidableEq, Repr

/-- The wording of a fault in attributes. -/
def AttributeFault.message : AttributeFault → String
  | .keyWithoutEquals position =>
    "position " ++ toString position ++
      ": attribute key must be directly followed by `=` or space"
  | .missingValue position =>
    "position " ++ toString position ++ ": `=` must be followed by an attribute value"
  | .unquotedValue position =>
    "position " ++ toString position ++ ": attribute value must be enclosed in `\"` or `'`"
  | .unclosedValue position quote =>
    "position " ++ toString position ++ ": missing closing quote `" ++ quote.toString ++
      "` in attribute value"

/-- Faults of a reference to a character by its number. -/
inductive ReferenceFault where
  | sign
  | noDigits
  | invalidDigit
  | tooLarge
  | zero
  | noCharacter (code : Nat)
  deriving DecidableEq, Repr

/-- The wording of a fault of a character reference. -/
def ReferenceFault.message : ReferenceFault → String
  | .sign => "unexpected number sign"
  | .noDigits => "cannot parse integer from empty string"
  | .invalidDigit => "invalid digit found in string"
  | .tooLarge => "number too large to fit in target type"
  | .zero => "0x0 character is not permitted in XML"
  | .noCharacter code => "`" ++ toString code ++ "` is not a valid codepoint"

/-- Faults of the escapes in an attribute value. -/
inductive EscapeFault where
  | unclosed (start finish : Nat)
  | unknownName (start finish : Nat) (name : String)
  | badReference (fault : ReferenceFault)
  deriving DecidableEq, Repr

/-- The wording of a fault of an escape. -/
def EscapeFault.message : EscapeFault → String
  | .unclosed start finish =>
    "Error while escaping character at range " ++ toString start ++ ".." ++ toString finish ++
      ": Cannot find ';' after '&'"
  | .unknownName start finish name =>
    "at " ++ toString start ++ ".." ++ toString finish ++ ": unrecognized entity `" ++ name ++ "`"
  | .badReference fault => "invalid character reference: " ++ fault.message

/-- Faults in how the tags of a document fit together. -/
inductive StructureFault where
  | severalRoots
  | closingWithoutOpening
  | noRoot
  deriving DecidableEq, Repr

/-- The wording of a fault of the structure. -/
def StructureFault.message : StructureFault → String
  | .severalRoots => "multiple root elements"
  | .closingWithoutOpening => "closing tag without opening tag"
  | .noRoot => "no root element found"

/-- Why a document was refused. -/
inductive DocumentError where
  | markup (fault : MarkupFault)
  | attributes (fault : AttributeFault)
  | escape (fault : EscapeFault)
  /-- An attribute that holds a flag has a value that is none. -/
  | notAFlag (element key value : String)
  | unclosedElement (element : String)
  | structure (fault : StructureFault)
  | unreadable (fault : Files.Fault)
  deriving DecidableEq, Repr

/-- The wording of an error. -/
def DocumentError.message : DocumentError → String
  | .markup fault => "XML parsing error: " ++ fault.message
  | .attributes fault => "invalid attribute syntax: " ++ fault.message
  | .escape fault => "invalid escape sequence: " ++ fault.message
  | .notAFlag element key value =>
    "invalid value '" ++ value ++ "' for attribute '" ++ key ++ "' on element '" ++ element ++ "'"
  | .unclosedElement element => "element '" ++ element ++ "' is never closed"
  | .structure fault => "invalid document structure: " ++ fault.message
  | .unreadable fault => "IO error: " ++ fault.message

end UxmlBindings.Markup
