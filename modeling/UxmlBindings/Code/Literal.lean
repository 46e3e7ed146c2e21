/-!
# String literals of the generated code

A string literal is written between double quotes. `escape` gives the characters between them: the
quote, the backslash and every character that ends a line in the generated code are written by an
escape sequence, so a literal always stays on one line.
-/

namespace UxmlBindings.Code

/-- The characters that stand for one character inside a literal. -/
def escapeChar (c : Char) : List Char :=
  if c = '\\' then ['\\', '\\']
  else if c = '"' then ['\\', '"']
  else if c = '\n' then ['\\', 'n']
  else if c = '\r' then ['\\', 'r']
  else if c = '\t' then ['\\', 't']
  else if c = '\x00' then ['\\', '0']
  else if c = '\u0085' then ['\\', 'u', '0', '0', '8', '5']
  else if c = '\u2028' then ['\\', 'u', '2', '0', '2', '8']
  else if c = '\u2029' then ['\\', 'u', '2', '0', '2', '9']
  else [c]

/-- The characters between the quotes of a literal. -/
def escape (value : List Char) : List Char :=
  value.flatMap escapeChar

/-- The text between the quotes of a literal. -/
def escapeText (value : String) : String :=
  String.ofList (escape value.toList)

/-- A text as a literal, quotes included. -/
def literal (value : String) : String :=
  "\"" ++ escapeText value ++ "\""

@[simp] theorem escape_nil : escape [] = [] := rfl

@[simp] theorem escape_cons (c : Char) (rest : List Char) :
    escape (c :: rest) = escapeChar c ++ escape rest := rfl

@[simp] theorem escape_append (first second : List Char) :
    escape (first ++ second) = escape first ++ escape second := by
  simp [escape]

end UxmlBindings.Code
