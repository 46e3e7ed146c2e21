import UxmlBindings.Code.Identifier
import UxmlBindings.Text.LetterCase

/-!
# Member names

The name that an element declares is free text. From it come the name of a private field and the
name of a public property. The field keeps the characters of the name and replaces those that no
identifier can hold; the property drops them and capitalises what follows.
-/

namespace UxmlBindings.Binding

open Code Text

/-- The head of a field name: the lower case of the first character. -/
def fieldHead (c : Char) : List Char :=
  if Identifier.isPart c then lowercase c else ['_']

/-- A later character of a field name. -/
def fieldPart (c : Char) : Char :=
  if Identifier.isPart c then c else '_'

/-- The characters of a field name. An underscore marks the field as private. -/
def fieldChars : List Char → List Char
  | [] => ['_']
  | first :: rest => '_' :: fieldHead first ++ rest.map fieldPart

/-- The name of the field for a declared name. -/
def MemberName.field (declared : String) : String :=
  String.ofList (fieldChars declared.toList)

/-- Whether a character only separates the words of a declared name. -/
def isSeparator (c : Char) : Bool :=
  !Identifier.isPart c || c == '_'

/-- The words of a declared name, run together. `capitalise` tells whether the next character starts
a word. -/
def joinWords : Bool → List Char → List Char
  | _, [] => []
  | capitalise, c :: rest =>
    if isSeparator c then joinWords true rest
    else if capitalise then uppercase c ++ joinWords false rest
    else c :: joinWords false rest

/-- Whether a name needs an underscore before its first character. -/
def needsUnderscore : List Char → Bool
  | [] => true
  | first :: _ => '0' ≤ first && first ≤ '9'

/-- The characters of a property name. -/
def propertyChars (declared : List Char) : List Char :=
  let joined := joinWords true declared
  if needsUnderscore joined then '_' :: joined else joined

/-- The name of the property for a declared name. -/
def MemberName.property (declared : String) : String :=
  String.ofList (propertyChars declared.toList)

/-- A field name starts with an underscore. -/
theorem head?_fieldChars (declared : List Char) : (fieldChars declared).head? = some '_' := by
  cases declared <;> rfl

/-- A property name is not empty. -/
theorem propertyChars_ne_nil (declared : List Char) : propertyChars declared ≠ [] := by
  unfold propertyChars
  dsimp only
  split
  · simp
  · rename_i fine
    intro empty
    simp [empty, needsUnderscore] at fine

end UxmlBindings.Binding
