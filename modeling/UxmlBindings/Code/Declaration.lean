import UxmlBindings.Code.Literal

/-!
# Trees of generated code

Generated files are built as trees of declarations, statements and expressions, and only turned into
text by the rendering, so that every decision on layout is made in one place. Expressions and
statements fit on one line and carry their own text here.
-/

namespace UxmlBindings.Code

/-- Who may use a declaration. -/
inductive Visibility where
  | everyone
  | owner
  deriving DecidableEq, Repr

/-- The keyword of a visibility. -/
def Visibility.keyword : Visibility → String
  | .everyone => "public"
  | .owner => "private"

/-- An expression. -/
inductive Expression where
  /-- A name. -/
  | ident (name : String)
  /-- A string literal, given by its value. -/
  | string (value : String)
  /-- A member of a value; `guarded` access yields null when the value is null. -/
  | member (target : Expression) (name : String) (guarded : Bool)
  /-- A call. -/
  | call (callee : Expression) (arguments : List Expression)
  /-- A conversion to a type. -/
  | cast (typeName : String) (value : Expression)
  /-- The construction of an object. -/
  | construct (typeName : String) (arguments : List Expression)

mutual

/-- The text of an expression. -/
def Expression.render : Expression → String
  | .ident name => name
  | .string value => literal value
  | .member target name guarded =>
    target.render ++ (if guarded then "?." else ".") ++ name
  | .call callee arguments => callee.render ++ "(" ++ Expression.renderList arguments ++ ")"
  | .cast typeName value => "(" ++ typeName ++ ")" ++ value.render
  | .construct typeName arguments => "new " ++ typeName ++ "(" ++ Expression.renderList arguments ++ ")"

/-- The text of a list of arguments. -/
def Expression.renderList : List Expression → String
  | [] => ""
  | [only] => only.render
  | first :: second :: rest => first.render ++ ", " ++ Expression.renderList (second :: rest)

end

/-- A statement. -/
inductive Statement where
  | evaluate (value : Expression)
  | assign (target value : Expression)

/-- The text of a statement. -/
def Statement.render : Statement → String
  | .evaluate value => value.render ++ ";"
  | .assign target value => target.render ++ " = " ++ value.render ++ ";"

/-- A field of a class. -/
structure FieldMember where
  attributes : List String := []
  visibility : Visibility := .owner
  readOnly : Bool := false
  typeName : String
  name : String
  deriving DecidableEq, Repr

/-- How a property gets its value: a block that returns it, or a single arrow. -/
inductive PropertyForm where
  | getter (value : Expression)
  | arrow (value : Expression)

/-- A property of a class. -/
structure PropertyMember where
  visibility : Visibility := .everyone
  typeName : String
  name : String
  body : PropertyForm

/-- A parameter of a constructor. -/
structure Parameter where
  typeName : String
  name : String
  deriving DecidableEq, Repr

/-- The text of a parameter. -/
def Parameter.render (parameter : Parameter) : String :=
  parameter.typeName ++ " " ++ parameter.name

/-- A constructor; it is named like the class that holds it. -/
structure ConstructorMember where
  visibility : Visibility := .everyone
  parameters : List Parameter
  body : List Statement

/-- A method without parameters and without a result. -/
structure MethodMember where
  visibility : Visibility := .everyone
  name : String
  body : List Statement

/-- A member of a class. -/
inductive Member where
  | field (declared : FieldMember)
  | property (declared : PropertyMember)
  | constructor (declared : ConstructorMember)
  | method (declared : MethodMember)

/-- The name under which a member is declared. A constructor has none of its own. -/
def Member.name? : Member → Option String
  | .field declared => some declared.name
  | .property declared => some declared.name
  | .constructor _ => none
  | .method declared => some declared.name

/-- A class. -/
structure GeneratedClass where
  name : String
  visibility : Visibility := .everyone
  isPartial : Bool := false
  bases : List String := []
  members : List Member := []

/-- The contents of a generated file. -/
structure GeneratedFile where
  header : Option String := none
  usings : List String := []
  space : Option String := none
  classes : List GeneratedClass := []

/-- Names a namespace that the file uses; naming it twice has no effect. -/
def GeneratedFile.use (file : GeneratedFile) (space : String) : GeneratedFile :=
  if file.usings.contains space then file
  else { file with usings := file.usings ++ [space] }

/-- A call of a member without arguments is the usual statement of a generated body. -/
def Statement.invoke (callee : Expression) (arguments : List Expression) : Statement :=
  .evaluate (.call callee arguments)

/-- No namespace is listed twice. -/
theorem GeneratedFile.usings_nodup_use {file : GeneratedFile} (h : file.usings.Nodup)
    (space : String) : (file.use space).usings.Nodup := by
  unfold GeneratedFile.use
  split
  · exact h
  · rename_i absent
    simp only [List.contains_iff_mem] at absent
    refine List.nodup_append.2 ⟨h, by simp, ?_⟩
    intro used usedMem other otherMem
    rw [List.mem_singleton.1 otherMem]
    exact fun same => absent (same ▸ usedMem)

end UxmlBindings.Code
