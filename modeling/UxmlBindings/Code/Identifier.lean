import UxmlBindings.Text.Alphabetic
import UxmlBindings.Text.Numeric
import UxmlBindings.Text.Split

/-!
# Identifiers of the generated code

An identifier starts with a letter or an underscore, goes on with letters, digits and underscores,
and is none of the language's reserved words. Words that are reserved only in some contexts remain
usable. `Identifier.isValid` decides this, and `Identifier.isDotted` does so for names joined by
dots.
-/

namespace UxmlBindings.Code

open Text

/-- The words that can never be used as an identifier. -/
def Identifier.reservedWords : List String :=
  ["abstract", "as", "base", "bool", "break", "byte", "case", "catch", "char", "checked", "class",
   "const", "continue", "decimal", "default", "delegate", "do", "double", "else", "enum", "event",
   "explicit", "extern", "false", "finally", "fixed", "float", "for", "foreach", "goto", "if",
   "implicit", "in", "int", "interface", "internal", "is", "lock", "long", "namespace", "new",
   "null", "object", "operator", "out", "override", "params", "private", "protected", "public",
   "readonly", "ref", "return", "sbyte", "sealed", "short", "sizeof", "stackalloc", "static",
   "string", "struct", "switch", "this", "throw", "true", "try", "typeof", "uint", "ulong",
   "unchecked", "unsafe", "ushort", "using", "virtual", "void", "volatile", "while"]

/-- Whether a name is a reserved word. -/
def Identifier.isReserved (name : String) : Bool :=
  Identifier.reservedWords.contains name

/-- Letters and digits of every script. -/
def isAlphanumeric (c : Char) : Bool :=
  isAlphabetic c || isNumeric c

/-- The characters that may stand at the head of an identifier. -/
def Identifier.isHead (c : Char) : Bool :=
  isAlphabetic c || c == '_'

/-- The characters that may stand inside an identifier. -/
def Identifier.isPart (c : Char) : Bool :=
  isAlphanumeric c || c == '_'

/-- Whether the characters have the form of an identifier, reserved words included. -/
def Identifier.hasForm : List Char → Bool
  | [] => false
  | first :: rest => Identifier.isHead first && rest.all Identifier.isPart

/-- Whether a name can be used as an identifier as it stands. -/
def Identifier.isValid (name : String) : Bool :=
  Identifier.hasForm name.toList && !Identifier.isReserved name

/-- Whether a text is a sequence of identifiers joined by dots. -/
def Identifier.isDotted (name : String) : Bool :=
  (splitOn '.' name.toList).all fun piece => Identifier.isValid (String.ofList piece)

/-- Whatever may start an identifier may also stand inside one. -/
theorem Identifier.isPart_of_isHead {c : Char} (h : Identifier.isHead c = true) :
    Identifier.isPart c = true := by
  simp only [Identifier.isHead, Bool.or_eq_true] at h
  simp only [Identifier.isPart, isAlphanumeric, Bool.or_eq_true]
  rcases h with h | h
  · exact .inl (.inl h)
  · exact .inr h

/-- An identifier holds nothing but characters that may stand inside one. -/
theorem Identifier.isPart_of_mem {name : String} (h : Identifier.isValid name = true) {c : Char}
    (member : c ∈ name.toList) : Identifier.isPart c = true := by
  have form : Identifier.hasForm name.toList = true := (Bool.and_eq_true_iff.1 h).1
  cases chars : name.toList with
  | nil => simp [chars] at member
  | cons first rest =>
    rw [chars] at form member
    obtain ⟨head, parts⟩ := Bool.and_eq_true_iff.1 form
    rcases List.mem_cons.1 member with rfl | inside
    · exact Identifier.isPart_of_isHead head
    · exact List.all_eq_true.1 parts c inside

end UxmlBindings.Code
