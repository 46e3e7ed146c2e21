import UxmlBindings.Binding.MemberName
import UxmlBindings.Binding.ElementTypes
import UxmlBindings.Markup.Document

/-!
# Selection of named elements

Generation needs few facts of an element that declares a name: its tag, that name, and the field
name that comes from it. `namedElements` collects them from a document, in document order. Elements
whose tag has a type are bound to it; for the others, and for field names that occur more than once,
there is a warning, and generation goes on.
-/

namespace UxmlBindings.Binding

open Markup

/-- What generation needs to know of an element that declares a name. -/
structure NamedElement where
  tag : String
  declaredName : String
  fieldName : String
  deriving DecidableEq, Repr

namespace NamedElement

/-- The element with a tag and a declared name. -/
def ofName (tag declaredName : String) : NamedElement where
  tag := tag
  declaredName := declaredName
  fieldName := MemberName.field declaredName

/-- What generation needs to know of an element of a document; an empty name counts as none. -/
def ofElement? (node : Element) : Option NamedElement :=
  if node.isNamed then node.name?.map (ofName node.tag) else none

/-- The name of the property for the element. -/
def propertyName (element : NamedElement) : String :=
  MemberName.property element.declaredName

end NamedElement

/-- A problem that does not stop generation. -/
inductive Warning where
  | untypedTag (tag declaredName : String)
  | sharedField (fieldName : String) (declaredNames : List String)
  | takenMember (memberName declaredName : String)
  deriving DecidableEq, Repr

/-- The wording of a warning. -/
def Warning.message : Warning → String
  | .untypedTag tag declaredName =>
    "failed to get property type '" ++ tag ++ "' for field '" ++ declaredName ++
      "'; property will be ignored"
  | .sharedField fieldName declaredNames =>
    "field '" ++ fieldName ++ "' is bound by " ++ toString declaredNames.length ++ " elements (" ++
      String.intercalate ", " declaredNames ++ "); only the last one is assigned"
  | .takenMember memberName declaredName =>
    "element '" ++ declaredName ++ "' maps to member '" ++ memberName ++
      "' which the generated class already declares; element will be ignored"

/-- A named element with the type of its tag. -/
structure BoundElement where
  named : NamedElement
  binding : TypedTag
  deriving DecidableEq, Repr

namespace BoundElement

/-- The name of the field for the element. -/
def fieldName (element : BoundElement) : String :=
  element.named.fieldName

/-- The name of the property for the element. -/
def propertyName (element : BoundElement) : String :=
  element.named.propertyName

/-- The element bound to the type of its tag, if the tag has one. -/
def ofNamed? (table : ElementTypes) (element : NamedElement) : Option BoundElement :=
  (table.typed? element.tag).map fun binding => ⟨element, binding⟩

end BoundElement

/-- Declared names under the field name that they share, with the field names in the order of first
occurrence. -/
structure FieldGroups where
  names : Std.ExtTreeMap String (List String) := ∅
  order : List String := []

/-- Adds a declared name to the group of its field. Where the group was empty, the field goes last. -/
def FieldGroups.add (groups : FieldGroups) (element : NamedElement) : FieldGroups :=
  let group := groups.names.getD element.fieldName []
  { names := groups.names.insert element.fieldName (group ++ [element.declaredName])
    order := if group.isEmpty then groups.order ++ [element.fieldName] else groups.order }

/-- The declared names of elements grouped by field name. -/
def groupByField (elements : List NamedElement) : FieldGroups :=
  elements.foldl FieldGroups.add {}

/-- Takes the groups of fields out one after the other, and warns of those with more than one name. -/
def takeShared (names : Std.ExtTreeMap String (List String)) : List String → List Warning
  | [] => []
  | field :: rest =>
    match names[field]? with
    | none => takeShared names rest
    | some group =>
      if 1 < group.length then .sharedField field group :: takeShared (names.erase field) rest
      else takeShared (names.erase field) rest

/-- One warning for every field name that more than one element has. -/
def sharedFieldWarnings (elements : List NamedElement) : List Warning :=
  let groups := groupByField elements
  takeShared groups.names groups.order

/-- The warning for an element whose tag has no type. -/
def untypedWarning? (table : ElementTypes) (element : NamedElement) : Option Warning :=
  match table.typed? element.tag with
  | some _ => none
  | none => some (.untypedTag element.tag element.declaredName)

/-- The named elements below the root of a document, in document order. -/
def namedElements (root : Element) : List NamedElement :=
  root.descendants.filterMap NamedElement.ofElement?

/-- The bound elements of a document and the warnings that came up on the way. -/
structure Selection where
  elements : List BoundElement
  warnings : List Warning
  deriving DecidableEq, Repr

namespace Selection

/-- Binds named elements to types. -/
def ofNamed (elements : List NamedElement) (table : ElementTypes) : Selection :=
  let bound := elements.filterMap (BoundElement.ofNamed? table)
  { elements := bound
    warnings := elements.filterMap (untypedWarning? table) ++
      sharedFieldWarnings (bound.map (·.named)) }

/-- The bound elements of a document. -/
def ofDocument (root : Element) (table : ElementTypes) : Selection :=
  ofNamed (namedElements root) table

end Selection

end UxmlBindings.Binding
