import UxmlBindings.Binding.Selection
import UxmlBindings.Binding.Shape
import UxmlBindings.Code.Render
import UxmlBindings.Text.Quoted

/-!
# Assembly of bindings

The bindings of a document are a class with a private field for every bound element, and a method
that looks each of them up under its declared name. Elements whose members would collide with other
members are left out. Such a collision, and a field shared by several elements, is a warning, or an
error if the policy rejects them.
-/

namespace UxmlBindings.Binding

open Code Markup

/-- What becomes of fields that several elements share, and of members that are already declared. -/
inductive NamePolicy where
  | allow
  | reject
  deriving DecidableEq, Repr

/-- Why nothing was generated. -/
inductive GenerationError where
  | document (error : DocumentError)
  | unreadable (fault : Files.Fault)
  | badAsset (fault : AssetFault)
  | sharedField (fieldName : String) (declaredNames : List String)
  | takenMember (memberName declaredName : String)
  deriving DecidableEq, Repr

/-- The wording of an error. -/
def GenerationError.message : GenerationError → String
  | .document error => "markup parse error: " ++ error.message
  | .unreadable fault => "IO error: " ++ fault.message
  | .badAsset fault => "invalid asset: " ++ fault.message
  | .sharedField fieldName declaredNames =>
    "duplicate field '" ++ fieldName ++ "' declared by elements " ++ Text.quotedList declaredNames
  | .takenMember memberName declaredName =>
    "element '" ++ declaredName ++ "' collides with generated member '" ++ memberName ++ "'"

/-- A generated file with the class in it and the warnings about it. -/
structure GeneratedText where
  className : String
  code : String
  warnings : List Warning
  deriving DecidableEq, Repr

/-- The names that decide whether the members of an element collide with others. -/
structure Surroundings where
  /-- Names that the class or its script declares in any case. -/
  reserved : List String
  /-- The field names of all bound elements. -/
  fields : List String
  /-- Whether elements have properties. -/
  exposes : Bool

/-- The name under which the members of an element collide, given the properties kept so far, each
with the field that it returns. Elements with the same field may share their property. -/
def Surroundings.clash? (surroundings : Surroundings) (kept : List (String × String))
    (element : BoundElement) : Option String :=
  if surroundings.reserved.contains element.fieldName then some element.fieldName
  else if surroundings.exposes then
    let property := element.propertyName
    if surroundings.reserved.contains property || surroundings.fields.contains property ||
        kept.any (fun (other, field) => other == property && field != element.fieldName) then
      some property
    else none
  else none

/-- The elements that can have members, and a warning for each of the others, unless the policy
rejects the first of them. -/
def Surroundings.sift (surroundings : Surroundings) (policy : NamePolicy) :
    List (String × String) → List BoundElement →
      Except GenerationError (List BoundElement × List Warning)
  | _, [] => .ok ([], [])
  | kept, element :: rest =>
    match surroundings.clash? kept element, policy with
    | some member, .reject => .error (.takenMember member element.named.declaredName)
    | some member, .allow => do
      let (elements, warnings) ← surroundings.sift policy kept rest
      return (elements, .takenMember member element.named.declaredName :: warnings)
    | none, _ => do
      let (elements, warnings) ←
        surroundings.sift policy (kept ++ [(element.propertyName, element.fieldName)]) rest
      return (element :: elements, warnings)

/-- The surroundings of the bound elements in a class of the given shape. -/
def surroundings (shape : Shape) (asset : AssetName) (elements : List BoundElement) :
    Surroundings where
  reserved := shape.reservedNames asset
  fields := elements.map (·.fieldName)
  exposes := shape.exposesElements

/-- The elements that get members in a class of the given shape, and the warnings for the others. -/
def keepUnreserved (policy : NamePolicy) (shape : Shape) (asset : AssetName)
    (elements : List BoundElement) : Except GenerationError (List BoundElement × List Warning) :=
  (surroundings shape asset elements).sift policy [] elements

/-- The field for an element. -/
def elementField (element : BoundElement) : FieldMember where
  typeName := element.binding.typeName
  name := element.fieldName

/-- The property that returns the field of an element. -/
def elementProperty (element : BoundElement) : PropertyMember where
  typeName := element.binding.typeName
  name := element.propertyName
  body := .arrow (.ident element.fieldName)

/-- The statement that looks up an element. -/
def elementAssignment (element : BoundElement) : Statement :=
  .assign (.ident element.fieldName)
    (.cast element.binding.typeName (Shape.lookupCall element.named.declaredName))

/-- The members of the bindings class. -/
def bindingsMembers (shape : Shape) (elements : List BoundElement) : List Member :=
  (shape.documentMember?.map Member.field).toList ++
    elements.map (fun element => .field (elementField element)) ++
    (shape.constructorMember?.map Member.constructor).toList ++
    [.property
      { typeName := Shape.rootType, name := Shape.rootName, body := .getter shape.rootExpression }] ++
    (if shape.exposesElements then elements.map fun element => .property (elementProperty element)
     else []) ++
    [.method { name := Shape.lookupMethod, body := elements.map elementAssignment }]

/-- The bindings class. -/
def bindingsDeclaration (shape : Shape) (asset : AssetName) (elements : List BoundElement) :
    GeneratedClass where
  name := shape.bindingsClass asset
  isPartial := true
  bases := shape.base?.toList
  members := bindingsMembers shape elements

/-- The comment that marks a file as generated. -/
def fileHeader : String :=
  "//------------------------------------------------------------------------------\n" ++
  "// <auto-generated>\n" ++
  "//     This code was generated by the markbind code generator.\n" ++
  "//     Version: 0.1.0\n" ++
  "//\n" ++
  "//     Changes to this file may cause incorrect behavior and will be lost if\n" ++
  "//     the code is regenerated.\n" ++
  "// </auto-generated>\n" ++
  "//------------------------------------------------------------------------------"

/-- The file with the bindings class. -/
def bindingsFile (shape : Shape) (asset : AssetName) (elements : List BoundElement) :
    GeneratedFile where
  header := some fileHeader
  usings := shape.usings
  space := some (shape.space asset)
  classes := [bindingsDeclaration shape asset elements]

/-- The warnings of a selection, unless the policy rejects the first field among them that several
elements share. -/
def NamePolicy.accept (policy : NamePolicy) : List Warning → Except GenerationError (List Warning)
  | [] => .ok []
  | warning :: rest =>
    match warning, policy with
    | .sharedField fieldName declaredNames, .reject =>
      .error (.sharedField fieldName declaredNames)
    | _, _ => do
      let accepted ← policy.accept rest
      return warning :: accepted

/-- The tree of the bindings file and the warnings about it. -/
def bindingsTree (policy : NamePolicy) (selection : Selection) (shape : Shape)
    (asset : AssetName) : Except GenerationError (GeneratedFile × List Warning) :=
  match asset.check with
  | .error fault => .error (.badAsset fault)
  | .ok () => do
    let warnings ← policy.accept selection.warnings
    let (elements, clashes) ← keepUnreserved policy shape asset selection.elements
    return (bindingsFile shape asset elements, warnings ++ clashes)

/-- The text of the bindings file for the selected elements. -/
def renderSelection (policy : NamePolicy) (selection : Selection) (shape : Shape)
    (asset : AssetName) : Except GenerationError GeneratedText := do
  let (file, warnings) ← bindingsTree policy selection shape asset
  return { className := shape.bindingsClass asset, code := file.render, warnings }

/-- The bindings for a list of named elements. -/
def bindingsOf (table : ElementTypes) (policy : NamePolicy) (elements : List NamedElement)
    (shape : Shape) (asset : AssetName) : Except GenerationError GeneratedText :=
  renderSelection policy (Selection.ofNamed elements table) shape asset

/-- The bindings for a document. -/
def documentBindings (table : ElementTypes) (policy : NamePolicy) (root : Element) (shape : Shape)
    (asset : AssetName) : Except GenerationError GeneratedText :=
  renderSelection policy (Selection.ofDocument root table) shape asset

/-- The script for an asset. -/
def assetScript (shape : Shape) (asset : AssetName) : Except GenerationError GeneratedText :=
  match asset.check with
  | .error fault => .error (.badAsset fault)
  | .ok () =>
    .ok
      { className := shape.scriptClass asset
        code := (shape.scriptFile asset).render
        warnings := [] }

/-- The bindings for the text of a document, with the built-in types. -/
def markupBindings (markup : String) (shape : Shape) (asset : AssetName) :
    Except GenerationError GeneratedText :=
  match Element.parse markup with
  | .error error => .error (.document error)
  | .ok root => documentBindings .standard .allow root shape asset

/-- The bindings for the document in a file, with the built-in types. -/
def fileBindings (tree : Files.FileTree) (path : Files.Pathname) (shape : Shape) (asset : AssetName) :
    Except GenerationError GeneratedText :=
  match tree.readText path with
  | .error fault => .error (.unreadable fault)
  | .ok markup => markupBindings markup shape asset

/-- The bindings for a document are those for its named elements. -/
theorem documentBindings_eq_bindingsOf (table : ElementTypes) (policy : NamePolicy) (root : Element)
    (shape : Shape) (asset : AssetName) :
    documentBindings table policy root shape asset =
      bindingsOf table policy (namedElements root) shape asset :=
  rfl

end UxmlBindings.Binding
