/-!
# Blank space in markup, and positions

Markup knows four blank characters. Positions in messages count the bytes that a text takes up in
UTF-8.
-/

namespace UxmlBindings.Markup

/-- Space, tab, carriage return and line feed. -/
def isBlank (c : Char) : Bool :=
  c == ' ' || c == '\t' || c == '\r' || c == '\n'

/-- A quote that may enclose an attribute value. -/
def isQuote (c : Char) : Bool :=
  c == '"' || c == '\x27'

/-- The number of bytes of a text in UTF-8. -/
def byteLength : List Char → Nat
  | [] => 0
  | c :: rest => c.utf8Size + byteLength rest

@[simp] theorem byteLength_append (first second : List Char) :
    byteLength (first ++ second) = byteLength first + byteLength second := by
  induction first with
  | nil => simp [byteLength]
  | cons c rest ih => simp [byteLength, ih, Nat.add_assoc]

/-- Dropping characters from the front does not make a text longer. -/
theorem length_dropWhile_le {α : Type} (test : α → Bool) (items : List α) :
    (items.dropWhile test).length ≤ items.length := by
  induction items with
  | nil => simp
  | cons item rest ih =>
    simp only [List.dropWhile_cons]
    split
    · exact Nat.le_succ_of_le ih
    · exact Nat.le_refl _

end UxmlBindings.Markup
