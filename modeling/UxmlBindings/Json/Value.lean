/-!
# JSON values

A JSON value keeps the members of an object in the order in which they are written, repetitions
included. A string may be written so that it holds half of a surrogate pair; such a string is no
text.
-/

namespace UxmlBindings.Json

/-- A JSON value. Numbers are kept as they are written. -/
inductive Value where
  | null
  | boolean (value : Bool)
  | number (written : String)
  /-- A string, with its text if it has one. -/
  | string (text : Option String)
  | array (items : List Value)
  /-- An object; the text of a key may be missing like that of a string. -/
  | object (members : List (Option String × Value))
  deriving Inhabited

namespace Value

/-- The string with a text. -/
def ofText (text : String) : Value := .string (some text)

/-- The text of a string that has one. -/
def text? : Value → Option String
  | .string text => text
  | _ => none

/-- The value of a boolean. -/
def boolean? : Value → Option Bool
  | .boolean value => some value
  | _ => none

/-- The object with members under keys that are texts. -/
def ofMembers (members : List (String × Value)) : Value :=
  .object (members.map fun (key, value) => (some key, value))

end Value

end UxmlBindings.Json
