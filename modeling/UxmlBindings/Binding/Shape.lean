import UxmlBindings.Binding.AssetName
import UxmlBindings.Code.Declaration

/-!
# Shapes of generated classes

A shape decides what the generated class is: a behaviour with a document, a plain component in a
namespace of the tool, or an editor window. It fixes the class's name, base, root element and fixed
members, and the script that is written once next to the bindings for hand-written logic.
-/

namespace UxmlBindings.Binding

open Code

/-- The shapes of a generated class. -/
inductive Shape where
  | document
  | component
  | editorWindow
  deriving DecidableEq, Repr

namespace Shape

/-- The name of a shape. -/
def name : Shape → String
  | .document => "Document"
  | .component => "Component"
  | .editorWindow => "EditorWindow"

/-- The shapes in the order in which they are listed. -/
def all : List Shape := [.document, .component, .editorWindow]

/-- A shape's name without its joiners and its case. -/
def plain (text : String) : List Char :=
  (text.toList.filter fun c => c != '-' && c != '_').map Char.toLower

/-- The shape that a text names. Hyphens, underscores and the case of letters do not matter. -/
def ofText? (text : String) : Option Shape :=
  all.find? fun shape => plain shape.name == plain text

/-- What is said of a text that names no shape. -/
def unknownMessage (text : String) : String :=
  "unknown generation shape '" ++ text ++ "'"

/-- The method that looks up the bound elements. -/
def lookupMethod : String := "InitializeDocument"

/-- The property that holds the root element. -/
def rootName : String := "Root"

/-- The type of the root element. -/
def rootType : String := "VisualElement"

/-- The field that holds the document. -/
def documentFieldName : String := "_document"

/-- The type of a document. -/
def documentTypeName : String := "UIDocument"

/-- The member that holds the root of a document or window. -/
def rootMember : String := "rootVisualElement"

/-- The namespace of component bindings. -/
def componentSpace : String := "Markbind.Runtime.Components"

/-- The namespace of the engine. -/
def engineSpace : String := "UnityEngine"

/-- The namespace of the user interface library. -/
def interfaceSpace : String := "UnityEngine.UIElements"

/-- The namespace of the editor. -/
def editorSpace : String := "UnityEditor"

/-- The base of behaviours. -/
def behaviourType : String := "MonoBehaviour"

/-- The base of editor windows. -/
def windowType : String := "EditorWindow"

/-- The attribute of fields that the editor fills in. -/
def serializedAttribute : String := "SerializeField"

/-- The method that runs when a behaviour is loaded. -/
def loadMethod : String := "Awake"

/-- The method that builds the contents of an editor window. -/
def createMethod : String := "CreateGUI"

/-- The field of a window script that holds the document to show. -/
def treeFieldName : String := "_visualTreeAsset"

/-- The field of a component script that holds the bindings. -/
def bindingsFieldName : String := "_bindings"

/-- The namespace of the bindings class. -/
def space (shape : Shape) (asset : AssetName) : String :=
  match shape with
  | .component => componentSpace
  | _ => asset.space

/-- The name of the bindings class. -/
def bindingsClass (shape : Shape) (asset : AssetName) : String :=
  match shape with
  | .component => asset.stem ++ "Component"
  | _ => asset.className

/-- The name of the script class. -/
def scriptClass (_ : Shape) (asset : AssetName) : String :=
  asset.className

/-- The base of the bindings class. -/
def base? : Shape → Option String
  | .document => some behaviourType
  | .component => none
  | .editorWindow => some windowType

/-- The namespaces that the bindings use. -/
def usings : Shape → List String
  | .document => [engineSpace, interfaceSpace]
  | .component => [engineSpace, interfaceSpace]
  | .editorWindow => [editorSpace, engineSpace, interfaceSpace]

/-- The field that holds the document. -/
def documentMember? : Shape → Option FieldMember
  | .document =>
    some { attributes := [serializedAttribute], typeName := documentTypeName, name := documentFieldName }
  | .component => some { readOnly := true, typeName := documentTypeName, name := documentFieldName }
  | .editorWindow => none

/-- The constructor of the bindings class. -/
def constructorMember? : Shape → Option ConstructorMember
  | .component =>
    some
      { parameters := [{ typeName := documentTypeName, name := "document" }]
        body := [.assign (.ident documentFieldName) (.ident "document")] }
  | _ => none

/-- The expression that yields the root element. -/
def rootExpression : Shape → Expression
  | .editorWindow => .ident rootMember
  | _ => .member (.ident documentFieldName) rootMember true

/-- Whether every bound element is open to others through a property. -/
def exposesElements : Shape → Bool
  | .component => true
  | _ => false

/-- The members of the script that share a class with the bindings. -/
def scriptNames : Shape → List String
  | .document => [loadMethod]
  | .component => []
  | .editorWindow => [treeFieldName, createMethod]

/-- The names that no member made for an element may take. -/
def reservedNames (shape : Shape) (asset : AssetName) : List String :=
  [shape.bindingsClass asset, rootName, lookupMethod] ++
    (shape.documentMember?.map (·.name)).toList ++ shape.scriptNames

/-- The expression that looks up an element by its declared name. -/
def lookupCall (declaredName : String) : Expression :=
  .call (.member (.ident rootName) "Q" true) [.string declaredName]

/-- The class of the script. -/
def scriptDeclaration (shape : Shape) (asset : AssetName) : GeneratedClass :=
  let start : List Statement := [.invoke (.ident lookupMethod) []]
  match shape with
  | .document =>
    { name := shape.scriptClass asset
      isPartial := true
      bases := [behaviourType]
      members := [.method { visibility := .owner, name := loadMethod, body := start }] }
  | .component =>
    { name := shape.scriptClass asset
      isPartial := true
      bases := [behaviourType]
      members :=
        [.field { attributes := [serializedAttribute], typeName := documentTypeName,
                  name := documentFieldName },
         .field { typeName := shape.bindingsClass asset, name := bindingsFieldName },
         .method
          { visibility := .owner
            name := loadMethod
            body :=
              [.assign (.ident bindingsFieldName)
                (.construct (shape.bindingsClass asset) [.ident documentFieldName]),
               .invoke (.member (.ident bindingsFieldName) lookupMethod false) []] }] }
  | .editorWindow =>
    { name := shape.scriptClass asset
      isPartial := true
      bases := [windowType]
      members :=
        [.field { attributes := [serializedAttribute], typeName := "VisualTreeAsset",
                  name := treeFieldName },
         .method
          { visibility := .owner
            name := createMethod
            body :=
              .invoke (.member (.ident treeFieldName) "CloneTree" true) [.ident rootMember] ::
                start }] }

/-- The namespaces that the script uses. -/
def scriptUsings : Shape → List String
  | .document => [engineSpace]
  | .component => [componentSpace, engineSpace, interfaceSpace]
  | .editorWindow => [editorSpace, engineSpace, interfaceSpace]

/-- The file of the script. Its class is in the asset's namespace, whatever the shape. -/
def scriptFile (shape : Shape) (asset : AssetName) : GeneratedFile where
  usings := shape.scriptUsings
  space := some asset.space
  classes := [shape.scriptDeclaration asset]

/-- A shape is found under its own name. -/
theorem ofText?_name (shape : Shape) : ofText? shape.name = some shape := by
  cases shape <;> decide

end Shape

end UxmlBindings.Binding
