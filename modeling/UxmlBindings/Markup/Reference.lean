import UxmlBindings.Markup.Blank
import UxmlBindings.Markup.Error

/-!
# References in attribute values

An attribute value may name a character between `&` and `;`, either by one of five names or by its
number after `#`, decimal or, after `#x`, hexadecimal. `unescape` replaces the references of a value
by their characters and leaves everything else alone.
-/

namespace UxmlBindings.Markup

/-- The characters that have a name. -/
def namedCharacter? (name : List Char) : Option Char :=
  [("lt", '<'), ("gt", '>'), ("amp", '&'), ("apos", '\x27'), ("quot", '"')].lookup (String.ofList name)

/-- The value of a digit, in bases up to sixteen. -/
def digitValue? (base : Nat) (c : Char) : Option Nat :=
  let value? :=
    if '0' ≤ c && c ≤ '9' then some (c.toNat - '0'.toNat)
    else if 'a' ≤ c && c ≤ 'f' then some (c.toNat - 'a'.toNat + 10)
    else if 'A' ≤ c && c ≤ 'F' then some (c.toNat - 'A'.toNat + 10)
    else none
  value?.filter (· < base)

/-- Reads digits after the number read so far; numbers have at most 32 bits. -/
def readDigits (base : Nat) : Nat → List Char → Except ReferenceFault Nat
  | number, [] => .ok number
  | number, c :: rest =>
    match digitValue? base c with
    | none => .error .invalidDigit
    | some digit =>
      if number * base + digit < 2 ^ 32 then readDigits base (number * base + digit) rest
      else .error .tooLarge

/-- Reads a number that consists of digits only. -/
def readNumber (base : Nat) : List Char → Except ReferenceFault Nat
  | [] => .error .noDigits
  | c :: rest => if c = '+' || c = '-' then .error .sign else readDigits base 0 (c :: rest)

/-- The character with a given number. -/
def characterOfCode (code : Nat) : Except ReferenceFault Char :=
  if code = 0 then .error .zero
  else if code.isValidChar then .ok (Char.ofNat code)
  else .error (.noCharacter code)

/-- The character that a number after `#` refers to. -/
def numberedCharacter : List Char → Except ReferenceFault Char
  | 'x' :: digits => readNumber 16 digits >>= characterOfCode
  | digits => readNumber 10 digits >>= characterOfCode

/-- The character that the text between `&` and `;` refers to. The text starts at the given
position. -/
def referredCharacter (start : Nat) (name : List Char) : Except EscapeFault Char :=
  match name with
  | '#' :: number => (numberedCharacter number).mapError .badReference
  | _ =>
    match namedCharacter? name with
    | some c => .ok c
    | none => .error (.unknownName start (start + byteLength name) (String.ofList name))

/-- Whether a character ends the text of a reference or the search for its end. -/
def endsReference (c : Char) : Bool :=
  c == ';' || c == '&'

/-- Replaces the references of a value from a position on; `total` is the length of the whole
value. -/
def unescapeFrom (total position : Nat) (value : List Char) :
    Except EscapeFault (List Char) :=
  match value with
  | [] => .ok []
  | c :: rest =>
    if c = '&' then
      let name := rest.takeWhile fun c => !endsReference c
      match remaining : rest.dropWhile fun c => !endsReference c with
      | ';' :: after => do
        let referred ← referredCharacter (position + 1) name
        let more ← unescapeFrom total (position + byteLength name + 2) after
        return referred :: more
      | _ => .error (.unclosed position total)
    else do
      let more ← unescapeFrom total (position + c.utf8Size) rest
      return c :: more
termination_by value.length
decreasing_by
  · have := length_dropWhile_le (fun c => !endsReference c) rest
    simp only [remaining, List.length_cons] at this ⊢
    omega
  · simp

/-- The text that an attribute value stands for. -/
def unescape (value : List Char) : Except EscapeFault (List Char) :=
  unescapeFrom (byteLength value) 0 value

end UxmlBindings.Markup
