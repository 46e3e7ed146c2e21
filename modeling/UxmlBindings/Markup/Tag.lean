import UxmlBindings.Markup.Element
import UxmlBindings.Markup.Reference
import UxmlBindings.Text.Split

/-!
# Tags and their attributes

The contents of a tag are its name, up to the first blank character, and its attributes. An
attribute is a key, an equals sign and a quoted value; blank space may stand around the equals sign
and between attributes. `Tag.element` gives the element that a tag opens: the tag name is divided at
its first colon, and a key that is written twice keeps its last value.
-/

namespace UxmlBindings.Markup

/-- The contents of a tag: its name and the text after it. -/
structure Tag where
  name : List Char
  trailer : List Char
  deriving DecidableEq, Repr

namespace Tag

/-- The contents between the brackets of a tag, taken apart. -/
def ofContents (contents : List Char) : Tag where
  name := contents.takeWhile fun c => !isBlank c
  trailer := contents.dropWhile fun c => !isBlank c

/-- Whether a character goes on with the key of an attribute. -/
def isKeyPart (c : Char) : Bool :=
  !(c == '=' || isBlank c)

/-- One step of reading attributes: nothing is left, or there is a key with its value as it is
written and a shorter rest. `total` is the number of bytes of the whole tag. -/
inductive Reading (text : List Char) where
  | finished
  | attribute (key value rest : List Char) (shorter : rest.length < text.length)

/-- Reads what follows the equals sign of an attribute. -/
def readValue (total : Nat) (text : List Char) : Except AttributeFault (List Char × List Char) :=
  match text.dropWhile isBlank with
  | [] => .error (.missingValue total)
  | quote :: inside =>
    if isQuote quote then
      match Text.cutAt [quote] inside with
      | some parts => .ok parts
      | none => .error (.unclosedValue total quote)
    else .error (.unquotedValue (total - byteLength (quote :: inside)))

/-- What follows a value is shorter than the text in which the value was read. -/
theorem length_lt_of_readValue {total : Nat} {text value rest : List Char}
    (h : readValue total text = .ok (value, rest)) : rest.length < text.length := by
  have bound := length_dropWhile_le isBlank text
  unfold readValue at h
  split at h
  · simp at h
  · rename_i quote inside eq
    rw [eq, List.length_cons] at bound
    split at h
    · split at h
      · rename_i parts found
        have := Text.length_lt_of_cutAt (by simp) (found.trans (congrArg some (Except.ok.inj h)))
        omega
      · simp at h
    · simp at h

/-- Reads the next attribute. The first character of the key is part of it whatever it is. -/
def readAttribute (total : Nat) (text : List Char) : Except AttributeFault (Reading text) :=
  match start : text.dropWhile isBlank with
  | [] => .ok .finished
  | first :: following =>
    match equals : (following.dropWhile isKeyPart).dropWhile isBlank with
    | '=' :: afterEquals =>
      match value : readValue total afterEquals with
      | .ok (raw, rest) =>
        .ok (.attribute (first :: following.takeWhile isKeyPart) raw rest (by
          have one := length_dropWhile_le isBlank text
          have two := length_dropWhile_le isKeyPart following
          have three := length_dropWhile_le isBlank (following.dropWhile isKeyPart)
          have four := length_lt_of_readValue value
          simp only [start, equals, List.length_cons] at one three
          omega))
      | .error fault => .error fault
    | other => .error (.keyWithoutEquals (total - byteLength other))

/-- The attributes of a tag in the order in which they are written, with references replaced. Each
value is read completely before the next attribute is looked at. -/
def readAttributes (total : Nat) (text : List Char) :
    Except DocumentError (List (String × String)) :=
  match readAttribute total text with
  | .error fault => .error (.attributes fault)
  | .ok .finished => .ok []
  | .ok (.attribute key raw rest _) =>
    match unescape raw with
    | .error fault => .error (.escape fault)
    | .ok value => do
      let more ← readAttributes total rest
      return (String.ofList key, String.ofList value) :: more
termination_by text.length

/-- The attributes written in the tag. -/
def attributes (tag : Tag) : Except DocumentError (List (String × String)) :=
  readAttributes (byteLength tag.name + byteLength tag.trailer) tag.trailer

/-- The childless element with the given qualified name and no attributes. -/
def emptyElement (name : List Char) : Element :=
  match Text.cutAt [':'] name with
  | some (scope, rest) => { tag := String.ofList rest, scope := some (String.ofList scope) }
  | none => { tag := String.ofList name }

/-- The childless element that the tag stands for. -/
def element (tag : Tag) : Except DocumentError Element := do
  let written ← tag.attributes
  return written.foldl (fun node (key, value) => node.set key value)
    (emptyElement tag.name)

end Tag

end UxmlBindings.Markup
