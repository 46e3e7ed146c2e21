import UxmlBindings.Json.Token
import UxmlBindings.Json.Value

/-!
# Reading JSON

The tokens of a text drive a machine with a stack of the arrays and objects that are still open. A
text is a JSON value if the machine ends with one value and an empty stack.

The grammar is the strict one: no comments, no commas after the last item, and one value with blank space
around it. Which member counts where a key is repeated, and whether a string without a text matters, is
left to those who use the value, and so is the range of numbers. Left out is where and why a text is no
value, as well as a bound on the depth of nesting.
-/

namespace UxmlBindings.Json

/-- An array or object that is still open. -/
inductive Frame where
  | array (items : List Value)
  | object (members : List (Option String × Value))
  /-- An object that waits for the value of a key. -/
  | member (members : List (Option String × Value)) (key : Option String)

/-- What the machine expects next. -/
inductive Expectation where
  | value
  /-- The first item of an array, or its end. -/
  | firstItem
  /-- The first key of an object, or its end. -/
  | firstKey
  | key
  | colon (key : Option String)
  /-- What follows a complete value. -/
  | continuation (value : Value)

/-- The machine's expectation and its stack. -/
abbrev Machine := Expectation × List Frame

namespace Machine

/-- Begins or completes a value where one is expected. -/
def takeValue (stack : List Frame) : Token → Option Machine
  | .null => some (.continuation .null, stack)
  | .boolean value => some (.continuation (.boolean value), stack)
  | .number written => some (.continuation (.number written), stack)
  | .string text => some (.continuation (.string text), stack)
  | .openBracket => some (.firstItem, .array [] :: stack)
  | .openBrace => some (.firstKey, .object [] :: stack)
  | _ => none

/-- Goes on after a complete value. -/
def takeAfter (value : Value) : List Frame → Token → Option Machine
  | .array items :: stack, .comma => some (.value, .array (items ++ [value]) :: stack)
  | .array items :: stack, .closeBracket =>
    some (.continuation (.array (items ++ [value])), stack)
  | .member members key :: stack, .comma =>
    some (.key, .object (members ++ [(key, value)]) :: stack)
  | .member members key :: stack, .closeBrace =>
    some (.continuation (.object (members ++ [(key, value)])), stack)
  | _, _ => none

/-- The machine after one token. -/
def next : Machine → Token → Option Machine
  | (.value, stack), token => takeValue stack token
  | (.firstItem, .array items :: stack), .closeBracket =>
    some (.continuation (.array items), stack)
  | (.firstItem, stack), token => takeValue stack token
  | (.firstKey, .object members :: stack), .closeBrace =>
    some (.continuation (.object members), stack)
  | (.firstKey, stack), .string key => some (.colon key, stack)
  | (.firstKey, _), _ => none
  | (.key, stack), .string key => some (.colon key, stack)
  | (.key, _), _ => none
  | (.colon key, .object members :: stack), .colon => some (.value, .member members key :: stack)
  | (.colon _, _), _ => none
  | (.continuation value, stack), token => takeAfter value stack token

/-- The machine after a sequence of tokens. -/
def run (machine : Machine) (tokens : List Token) : Option Machine :=
  tokens.foldlM next machine

/-- The value that the machine has read if nothing is open. -/
def result? : Machine → Option Value
  | (.continuation value, []) => some value
  | _ => none

theorem run_append (machine : Machine) (first second : List Token) :
    run machine (first ++ second) = (run machine first).bind fun machine => run machine second := by
  simp [run]

end Machine

/-- The value that a sequence of tokens writes. -/
def Value.ofTokens? (tokens : List Token) : Option Value :=
  (Machine.run (.value, []) tokens).bind Machine.result?

/-- Reads a JSON text. -/
def Value.parse? (text : String) : Option Value :=
  (Token.scan text.toList).bind Value.ofTokens?

end UxmlBindings.Json
