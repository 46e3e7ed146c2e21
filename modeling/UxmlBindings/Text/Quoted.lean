import UxmlBindings.Text.Visible

/-!
# Quoted lists of names

A message that lists declared names writes each of them between double quotes. Line and tab
characters, quotes and backslashes get short escapes, and a character with no appearance of its own
is written by its code.
-/

namespace UxmlBindings.Text

/-- The characters that stand for one character inside a quoted name. -/
def quotedChar (c : Char) : List Char :=
  if c = '\x00' then ['\\', '0']
  else if c = '\t' then ['\\', 't']
  else if c = '\r' then ['\\', 'r']
  else if c = '\n' then ['\\', 'n']
  else if c = '\\' || c = '"' then ['\\', c]
  else if isVisible c then [c]
  else ['\\', 'u', '\x7b'] ++ Nat.toDigits 16 c.toNat ++ ['\x7d']

/-- A name between double quotes. -/
def quoted (name : String) : String :=
  String.ofList ('"' :: name.toList.flatMap quotedChar ++ ['"'])

/-- A list of names in brackets. -/
def quotedList (names : List String) : String :=
  "[" ++ String.intercalate ", " (names.map quoted) ++ "]"

end UxmlBindings.Text
