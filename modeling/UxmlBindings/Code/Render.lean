import UxmlBindings.Code.Layout
import UxmlBindings.Code.Declaration
import UxmlBindings.Text.Lines

/-!
# Rendering of generated files

Each declaration becomes a sequence of layout steps. The header comes first, then the used
namespaces, then the classes, inside a namespace block if there is a namespace. Members of a class
are set apart by a blank line, except that neighbouring fields stay together. The same tree always
gives the same text.
-/

namespace UxmlBindings.Code

/-- A block with the given contents. -/
def block (contents : List Step) : List Step :=
  .opening :: contents ++ [.closing]

/-- Statements, one a line, as a block. -/
def bodySteps (body : List Statement) : List Step :=
  block (body.map fun statement => .line statement.render)

/-- A field: its attributes in brackets, one a line, then the declaration. -/
def FieldMember.steps (field : FieldMember) : List Step :=
  (field.attributes.map fun label => .line ("[" ++ label ++ "]")) ++
    [.line (field.visibility.keyword ++ (if field.readOnly then " readonly" else "") ++ " " ++
      field.typeName ++ " " ++ field.name ++ ";")]

/-- A property, on one line if it has an arrow and as two nested blocks if it has a getter. -/
def PropertyMember.steps (property : PropertyMember) : List Step :=
  let signature := property.visibility.keyword ++ " " ++ property.typeName ++ " " ++ property.name
  match property.body with
  | .arrow value => [.line (signature ++ " => " ++ value.render ++ ";")]
  | .getter value =>
    .line signature :: block (.line "get" :: block [.line ("return " ++ value.render ++ ";")])

/-- A constructor of the named class. -/
def ConstructorMember.steps (constructor : ConstructorMember) (className : String) : List Step :=
  .line (constructor.visibility.keyword ++ " " ++ className ++ "(" ++
    String.intercalate ", " (constructor.parameters.map Parameter.render) ++ ")") ::
    bodySteps constructor.body

/-- A method. -/
def MethodMember.steps (method : MethodMember) : List Step :=
  .line (method.visibility.keyword ++ " void " ++ method.name ++ "()") :: bodySteps method.body

/-- A member of the named class. -/
def Member.steps (className : String) : Member → List Step
  | .field declared => declared.steps
  | .property declared => declared.steps
  | .constructor declared => declared.steps className
  | .method declared => declared.steps

/-- Whether a member is a field. -/
def Member.isField : Member → Bool
  | .field _ => true
  | _ => false

/-- What stands between two members that follow each other. -/
def separation (previous next : Member) : List Step :=
  if previous.isField && next.isField then [] else [.blank]

/-- The members that follow a member, each after its separation. -/
def followingSteps (className : String) (previous : Member) : List Member → List Step
  | [] => []
  | next :: rest =>
    separation previous next ++ next.steps className ++ followingSteps className next rest

/-- The members of a class. -/
def memberSteps (className : String) : List Member → List Step
  | [] => []
  | first :: rest => first.steps className ++ followingSteps className first rest

/-- The line that opens a class. -/
def GeneratedClass.signature (declaration : GeneratedClass) : String :=
  declaration.visibility.keyword ++ (if declaration.isPartial then " partial" else "") ++
    " class " ++ declaration.name ++
    (if declaration.bases.isEmpty then "" else " : " ++ String.intercalate ", " declaration.bases)

/-- A class. -/
def GeneratedClass.steps (declaration : GeneratedClass) : List Step :=
  .line declaration.signature :: block (memberSteps declaration.name declaration.members)

/-- The classes of a file, with a blank line between them. -/
def classSteps : List GeneratedClass → List Step
  | [] => []
  | [only] => only.steps
  | first :: second :: rest => first.steps ++ .blank :: classSteps (second :: rest)

/-- The header, closed by a blank line. -/
def headerSteps (header : String) : List Step :=
  ((Text.lines header.toList).map fun line => .line (String.ofList line)) ++ [.blank]

/-- The used namespaces, closed by a blank line if there are any. -/
def usingSteps (usings : List String) : List Step :=
  if usings.isEmpty then []
  else (usings.map fun space => .line ("using " ++ space ++ ";")) ++ [.blank]

/-- The classes inside their namespace; an empty namespace is none. -/
def GeneratedFile.bodySteps (file : GeneratedFile) : List Step :=
  match file.space with
  | none => classSteps file.classes
  | some space =>
    if space.isEmpty then classSteps file.classes
    else .line ("namespace " ++ space) :: block (classSteps file.classes)

/-- All steps of a file. -/
def GeneratedFile.steps (file : GeneratedFile) : List Step :=
  (match file.header with
    | none => []
    | some header => headerSteps header) ++ usingSteps file.usings ++ file.bodySteps

/-- The text of a file. -/
def GeneratedFile.render (file : GeneratedFile) : String :=
  textOfSteps file.steps

end UxmlBindings.Code
