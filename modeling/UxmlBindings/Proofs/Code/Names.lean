import UxmlBindings.Code.Declaration

/-!
# The names in a tree of generated code

The names of a tree are the texts in it that its rendering writes as they stand: identifiers, names of
members and types, used namespaces, attributes. The values of string literals are none of them, nor is
the header of a file.
-/

namespace UxmlBindings.Code

mutual

/-- The names in an expression. -/
def Expression.names : Expression → List String
  | .ident name => [name]
  | .string _ => []
  | .member target name _ => target.names ++ [name]
  | .call callee arguments => callee.names ++ Expression.listNames arguments
  | .cast typeName value => typeName :: value.names
  | .construct typeName arguments => typeName :: Expression.listNames arguments

/-- The names in a list of arguments. -/
def Expression.listNames : List Expression → List String
  | [] => []
  | first :: rest => first.names ++ Expression.listNames rest

end

/-- The names in a statement. -/
def Statement.names : Statement → List String
  | .evaluate value => value.names
  | .assign target value => target.names ++ value.names

/-- The names in a field. -/
def FieldMember.names (field : FieldMember) : List String :=
  field.attributes ++ [field.typeName, field.name]

/-- The value of a property. -/
def PropertyForm.value : PropertyForm → Expression
  | .getter value => value
  | .arrow value => value

/-- The names in a property. -/
def PropertyMember.names (property : PropertyMember) : List String :=
  property.typeName :: property.name :: property.body.value.names

/-- The names in a parameter. -/
def Parameter.names (parameter : Parameter) : List String :=
  [parameter.typeName, parameter.name]

/-- The names in a constructor. -/
def ConstructorMember.names (constructor : ConstructorMember) : List String :=
  constructor.parameters.flatMap Parameter.names ++ constructor.body.flatMap Statement.names

/-- The names in a method. -/
def MethodMember.names (method : MethodMember) : List String :=
  method.name :: method.body.flatMap Statement.names

/-- The names in a member. -/
def Member.names : Member → List String
  | .field declared => declared.names
  | .property declared => declared.names
  | .constructor declared => declared.names
  | .method declared => declared.names

/-- The names in a class. -/
def GeneratedClass.names (declaration : GeneratedClass) : List String :=
  declaration.name :: declaration.bases ++ declaration.members.flatMap Member.names

/-- The names in a file. An empty namespace is none. -/
def GeneratedFile.names (file : GeneratedFile) : List String :=
  file.usings ++ file.space.toList.filter (!·.isEmpty) ++ file.classes.flatMap GeneratedClass.names

end UxmlBindings.Code
