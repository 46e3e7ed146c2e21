import UxmlBindings.Json.Value

/-!
# Writing JSON

Arrays and objects are written with each item on a line of its own, indented by two spaces for every
open bracket; empty ones stay on one line. Strings escape quotes, backslashes and control characters
and nothing else.

This is the usual form for human readers: a colon and a space after each key, members in the order in
which the value has them, control characters by their letter where they have one and by four digits
otherwise, and no line end after the value. Numbers are written as they were read, because no record that
is printed has any; how a number is put into digits is left out.
-/

namespace UxmlBindings.Json

/-- A hexadecimal digit in lower case. -/
def hexDigit (value : Nat) : Char :=
  if value < 10 then Char.ofNat ('0'.toNat + value) else Char.ofNat ('a'.toNat + (value - 10))

/-- The characters that stand for one character inside a string. -/
def escapeChar (c : Char) : List Char :=
  if c = '"' then ['\\', '"']
  else if c = '\\' then ['\\', '\\']
  else if c = '\x08' then ['\\', 'b']
  else if c = '\x0c' then ['\\', 'f']
  else if c = '\n' then ['\\', 'n']
  else if c = '\r' then ['\\', 'r']
  else if c = '\t' then ['\\', 't']
  else if c.toNat < 0x20 then ['\\', 'u', '0', '0', hexDigit (c.toNat / 16), hexDigit (c.toNat % 16)]
  else [c]

/-- A text as a string. -/
def stringChars (text : List Char) : List Char :=
  '"' :: text.flatMap escapeChar ++ ['"']

/-- The characters of a string that may have no text. -/
def optionalStringChars (text : Option String) : List Char :=
  stringChars (text.getD "").toList

/-- A line feed and the indentation at a depth. -/
def newLine (depth : Nat) : List Char :=
  '\n' :: List.replicate (2 * depth) ' '

mutual

/-- The characters of a value inside brackets of the given number. -/
def Value.chars (depth : Nat) : Value → List Char
  | .null => "null".toList
  | .boolean true => "true".toList
  | .boolean false => "false".toList
  | .number written => written.toList
  | .string text => optionalStringChars text
  | .array [] => ['[', ']']
  | .array (first :: rest) =>
    '[' :: newLine (depth + 1) ++ first.chars (depth + 1) ++ Value.itemChars (depth + 1) rest ++
      newLine depth ++ [']']
  | .object [] => ['\x7b', '\x7d']
  | .object ((key, value) :: rest) =>
    '\x7b' :: newLine (depth + 1) ++ optionalStringChars key ++ [':', ' '] ++
      value.chars (depth + 1) ++ Value.memberChars (depth + 1) rest ++ newLine depth ++ ['\x7d']

/-- The characters of the items after the first one, each on a new line. -/
def Value.itemChars (depth : Nat) : List Value → List Char
  | [] => []
  | item :: rest => ',' :: newLine depth ++ item.chars depth ++ Value.itemChars depth rest

/-- The characters of the members after the first one, each on a new line. -/
def Value.memberChars (depth : Nat) : List (Option String × Value) → List Char
  | [] => []
  | (key, value) :: rest =>
    ',' :: newLine depth ++ optionalStringChars key ++ [':', ' '] ++ value.chars depth ++
      Value.memberChars depth rest

end

/-- A value as a text over several lines. -/
def Value.render (value : Value) : String :=
  String.ofList (value.chars 0)

end UxmlBindings.Json
