import Std.Data.ExtTreeMap
import UxmlBindings.Markup.Error
import UxmlBindings.Text.Blank

/-!
# Trees of markup elements

A document is a tree of elements. Only tags, attributes and nesting are kept. An element has at most
one value for each attribute key, and two elements with the same keys and values are equal however
they were written.

`Element.preorder` lists the elements below an element by recursion. `Element.descendants` lists them
by a walk, which yields one element after the other and keeps those that are still to be visited on
a stack; `descendants_eq_preorder` shows that both agree.
-/

namespace UxmlBindings.Markup

/-- The attributes of an element, ordered by key. -/
abbrev Attributes := Std.ExtTreeMap String String

/-- An element with everything below it. The scope is the part of the tag before its first colon. -/
structure Element where
  tag : String
  scope : Option String := none
  attributes : Attributes := ∅
  children : List Element := []

namespace Element

mutual

/-- Equality of elements is decided part by part. -/
def decideEq : (first second : Element) → Decidable (first = second)
  | ⟨tag, scope, attributes, children⟩, ⟨tag', scope', attributes', children'⟩ =>
    match decEq (tag, scope, attributes) (tag', scope', attributes'),
      decideEqList children children' with
    | isTrue same, isTrue below => isTrue (by simp_all)
    | isFalse different, _ => isFalse (by simp_all)
    | _, isFalse different => isFalse (by simp_all)

/-- Equality of lists of elements is decided element by element. -/
def decideEqList : (first second : List Element) → Decidable (first = second)
  | [], [] => isTrue rfl
  | [], _ :: _ => isFalse nofun
  | _ :: _, [] => isFalse nofun
  | first :: rest, first' :: rest' =>
    match decideEq first first', decideEqList rest rest' with
    | isTrue same, isTrue below => isTrue (by rw [same, below])
    | isFalse different, _ => isFalse (by simp [different])
    | _, isFalse different => isFalse (by simp [different])

end

instance : DecidableEq Element := decideEq

/-- The attribute under which an element declares its name. -/
def nameKey : String := "name"

/-- The element with a value for a key, which replaces an earlier value. -/
def set (node : Element) (key value : String) : Element :=
  { node with attributes := node.attributes.insert key value }

/-- The value of an attribute. -/
def get? (node : Element) (key : String) : Option String :=
  node.attributes[key]?

/-- The name that the element declares. -/
def name? (node : Element) : Option String :=
  node.get? nameKey

/-- Whether the element declares a name that is not empty. -/
def isNamed (node : Element) : Bool :=
  match node.name? with
  | some name => !name.isEmpty
  | none => false

/-- The tag as it is written, scope included. -/
def writtenTag (node : Element) : String :=
  match node.scope with
  | some scope => scope ++ ":" ++ node.tag
  | none => node.tag

/-- Whether two texts are the same but for the case of ASCII letters. -/
def sameIgnoringCase (first second : List Char) : Bool :=
  first.map Char.toLower == second.map Char.toLower

/-- The value of an attribute that holds a flag; an absent attribute is a false flag. White space
around the value and the case of its letters do not matter. -/
def flag (node : Element) (key : String) : Except DocumentError Bool :=
  match node.get? key with
  | none => .ok false
  | some raw =>
    let value := Text.trim raw.toList
    if sameIgnoringCase value "true".toList then .ok true
    else if sameIgnoringCase value "false".toList then .ok false
    else .error (.notAFlag node.writtenTag key raw)

mutual

/-- The number of elements in a tree. -/
def size : Element → Nat
  | ⟨_, _, _, children⟩ => 1 + sizeList children

/-- The number of elements in a list of trees. -/
def sizeList : List Element → Nat
  | [] => 0
  | first :: rest => first.size + sizeList rest

end

mutual

/-- The elements below an element: for each child in order, the child and then what is below it. -/
def preorder : Element → List Element
  | ⟨_, _, _, children⟩ => preorderList children

/-- The elements of a list of trees, in the same order. -/
def preorderList : List Element → List Element
  | [] => []
  | first :: rest => first :: (first.preorder ++ preorderList rest)

end

theorem size_eq (node : Element) : node.size = 1 + sizeList node.children := by
  cases node
  rfl

theorem preorder_eq (node : Element) : node.preorder = preorderList node.children := by
  cases node
  rfl

@[simp] theorem sizeList_append (first second : List Element) :
    sizeList (first ++ second) = sizeList first + sizeList second := by
  induction first with
  | nil => simp [sizeList]
  | cons node rest ih => simp [sizeList, ih, Nat.add_assoc]

@[simp] theorem preorderList_append (first second : List Element) :
    preorderList (first ++ second) = preorderList first ++ preorderList second := by
  induction first with
  | nil => rfl
  | cons node rest ih => simp [preorderList, ih]

end Element

/-- A walk through trees. Those that are still to be visited lie on a stack, the next one at its
end. -/
structure Walk where
  stack : Array Element

namespace Walk

/-- The walk through the elements below an element. -/
def below (node : Element) : Walk where
  stack := node.children.reverse.toArray

/-- The next element with the walk after it. Its children are put on the stack from the last one to
the first one, so that the first one comes next. -/
def next? (walk : Walk) : Option (Element × Walk) :=
  walk.stack.back?.map fun node => (node, ⟨walk.stack.pop ++ node.children.reverse⟩)

/-- The trees that are still to be visited, the next one first. -/
def pending (walk : Walk) : List Element :=
  walk.stack.toList.reverse

@[simp] theorem pending_below (node : Element) : (below node).pending = node.children := by
  simp [pending, below]

/-- A walk ends when nothing is left to be visited. -/
theorem next?_eq_none_iff {walk : Walk} : walk.next? = none ↔ walk.pending = [] := by
  simp [next?, pending]

/-- The next element is the first one that was to be visited, and its children take its place. -/
theorem pending_of_next? {walk later : Walk} {node : Element}
    (hnext : walk.next? = some (node, later)) :
    ∃ rest, walk.pending = node :: rest ∧ later.pending = node.children ++ rest := by
  rw [next?, Option.map_eq_some_iff] at hnext
  obtain ⟨last, hlast, hsame⟩ := hnext
  obtain ⟨rfl, rfl⟩ := Prod.mk.inj hsame
  obtain ⟨lower, hstack⟩ := Array.back?_eq_some_iff.1 hlast
  exact ⟨lower.toList.reverse, by simp [pending, hstack], by simp [pending, hstack]⟩

/-- Every step leaves fewer elements to be visited. -/
theorem sizeList_pending_lt {walk later : Walk} {node : Element}
    (hnext : walk.next? = some (node, later)) :
    Element.sizeList later.pending < Element.sizeList walk.pending := by
  obtain ⟨rest, hwalk, hlater⟩ := pending_of_next? hnext
  rw [hwalk, hlater, Element.sizeList_append, Element.sizeList, Element.size_eq]
  omega

/-- The elements that a walk comes upon, one after the other. -/
def toList (walk : Walk) : List Element :=
  match _hnext : walk.next? with
  | none => []
  | some (node, later) => node :: later.toList
termination_by Element.sizeList walk.pending
decreasing_by exact sizeList_pending_lt _hnext

/-- A walk comes upon the elements of the pending trees in the recursive order. -/
theorem toList_eq_preorderList (walk : Walk) : walk.toList = Element.preorderList walk.pending := by
  fun_induction toList walk with
  | case1 walk hnone => rw [next?_eq_none_iff.1 hnone, Element.preorderList]
  | case2 walk node later hnext ih =>
    obtain ⟨rest, hwalk, hlater⟩ := pending_of_next? hnext
    rw [ih, hwalk, hlater, Element.preorderList_append, Element.preorderList, Element.preorder_eq]

end Walk

namespace Element

/-- The elements below an element, in document order. -/
def descendants (node : Element) : List Element :=
  (Walk.below node).toList

/-- Both ways of listing the elements below an element agree. -/
theorem descendants_eq_preorder (node : Element) : node.descendants = node.preorder := by
  rw [descendants, Walk.toList_eq_preorderList, Walk.pending_below, preorder_eq]

/-- A value that was set is found, and setting it hides no other key. -/
theorem get?_set (node : Element) (key value other : String) :
    (node.set key value).get? other =
      if key = other then some value else node.get? other := by
  simp [set, get?, Std.ExtTreeMap.getElem?_insert]

end Element

end UxmlBindings.Markup
