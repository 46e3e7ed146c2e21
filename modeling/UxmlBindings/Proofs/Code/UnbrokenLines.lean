import UxmlBindings.Proofs.Code.LineTexts

/-!
# Files of unbroken lines

A declaration gives its lines to the file as they stand, so a file is cut into the lines of its layout
if all names in it are unbroken.
-/

namespace UxmlBindings.Code

/-! ## Names of declarations -/

mutual

/-- Whether the names in an expression are unbroken. -/
def Expression.namesUnbroken : Expression → Bool
  | .ident name => isUnbroken name
  | .string _ => true
  | .member target name _ => target.namesUnbroken && isUnbroken name
  | .call callee arguments => callee.namesUnbroken && Expression.allNamesUnbroken arguments
  | .cast typeName value => isUnbroken typeName && value.namesUnbroken
  | .construct typeName arguments => isUnbroken typeName && Expression.allNamesUnbroken arguments

/-- Whether the names in a list of arguments are unbroken. -/
def Expression.allNamesUnbroken : List Expression → Bool
  | [] => true
  | first :: rest => first.namesUnbroken && Expression.allNamesUnbroken rest

end

/-- Whether the names in a statement are unbroken. -/
def Statement.namesUnbroken : Statement → Bool
  | .evaluate value => value.namesUnbroken
  | .assign target value => target.namesUnbroken && value.namesUnbroken

/-- Whether the names in a field are unbroken. -/
def FieldMember.namesUnbroken (field : FieldMember) : Bool :=
  field.attributes.all isUnbroken && isUnbroken field.typeName && isUnbroken field.name

/-- Whether the names in a property are unbroken. -/
def PropertyMember.namesUnbroken (property : PropertyMember) : Bool :=
  isUnbroken property.typeName && isUnbroken property.name &&
    match property.body with
    | .arrow value | .getter value => value.namesUnbroken

/-- Whether the names in a constructor are unbroken. -/
def ConstructorMember.namesUnbroken (constructor : ConstructorMember) : Bool :=
  constructor.parameters.all (fun parameter =>
    isUnbroken parameter.typeName && isUnbroken parameter.name) &&
    constructor.body.all Statement.namesUnbroken

/-- Whether the names in a method are unbroken. -/
def MethodMember.namesUnbroken (method : MethodMember) : Bool :=
  isUnbroken method.name && method.body.all Statement.namesUnbroken

/-- Whether the names in a member are unbroken. -/
def Member.namesUnbroken : Member → Bool
  | .field declared => declared.namesUnbroken
  | .property declared => declared.namesUnbroken
  | .constructor declared => declared.namesUnbroken
  | .method declared => declared.namesUnbroken

/-- Whether the names in a class are unbroken. -/
def GeneratedClass.namesUnbroken (declaration : GeneratedClass) : Bool :=
  isUnbroken declaration.name && declaration.bases.all isUnbroken &&
    declaration.members.all Member.namesUnbroken

/-- Whether the names in a file are unbroken, and no line of its header holds another line break. -/
def GeneratedFile.namesUnbroken (file : GeneratedFile) : Bool :=
  (file.header.toList.flatMap fun header => Text.lines header.toList).all
      (fun line => isUnbroken (String.ofList line)) &&
    file.usings.all isUnbroken && file.space.toList.all isUnbroken &&
    file.classes.all GeneratedClass.namesUnbroken

mutual

theorem Expression.namesUnbroken_eq : (expression : Expression) →
    expression.namesUnbroken = expression.names.all isUnbroken
  | .ident name => by simp [namesUnbroken, names]
  | .string value => rfl
  | .member target name guarded => by simp [namesUnbroken, names, target.namesUnbroken_eq]
  | .call callee arguments => by
    simp [namesUnbroken, names, callee.namesUnbroken_eq, Expression.allNamesUnbroken_eq arguments]
  | .cast typeName value => by simp [namesUnbroken, names, value.namesUnbroken_eq]
  | .construct typeName arguments => by
    simp [namesUnbroken, names, Expression.allNamesUnbroken_eq arguments]

theorem Expression.allNamesUnbroken_eq : (arguments : List Expression) →
    Expression.allNamesUnbroken arguments = (Expression.listNames arguments).all isUnbroken
  | [] => rfl
  | first :: rest => by
    simp [allNamesUnbroken, listNames, first.namesUnbroken_eq, Expression.allNamesUnbroken_eq rest]

end

theorem Statement.namesUnbroken_eq (statement : Statement) :
    statement.namesUnbroken = statement.names.all isUnbroken := by
  cases statement <;> simp [namesUnbroken, names, Expression.namesUnbroken_eq]

theorem FieldMember.namesUnbroken_eq (field : FieldMember) :
    field.namesUnbroken = field.names.all isUnbroken := by
  simp [namesUnbroken, names, Bool.and_assoc]

theorem PropertyMember.namesUnbroken_eq (property : PropertyMember) :
    property.namesUnbroken = property.names.all isUnbroken := by
  rcases property with ⟨_, _, _, value | value⟩ <;>
    simp [namesUnbroken, names, PropertyForm.value, Bool.and_assoc, Expression.namesUnbroken_eq]

theorem ConstructorMember.namesUnbroken_eq (constructor : ConstructorMember) :
    constructor.namesUnbroken = constructor.names.all isUnbroken := by
  simp [namesUnbroken, names, List.all_flatMap, Parameter.names,
    funext Statement.namesUnbroken_eq]

theorem MethodMember.namesUnbroken_eq (method : MethodMember) :
    method.namesUnbroken = method.names.all isUnbroken := by
  simp [namesUnbroken, names, List.all_flatMap, funext Statement.namesUnbroken_eq]

theorem Member.namesUnbroken_eq (member : Member) :
    member.namesUnbroken = member.names.all isUnbroken := by
  cases member with
  | field declared => exact declared.namesUnbroken_eq
  | property declared => exact declared.namesUnbroken_eq
  | constructor declared => exact declared.namesUnbroken_eq
  | method declared => exact declared.namesUnbroken_eq

theorem GeneratedClass.namesUnbroken_eq (declaration : GeneratedClass) :
    declaration.namesUnbroken = declaration.names.all isUnbroken := by
  simp [namesUnbroken, names, List.all_flatMap, Bool.and_assoc, funext Member.namesUnbroken_eq]

/-! ## Steps and lines -/

/-- Whether a step writes an unbroken line. -/
def Step.isUnbroken : Step → Bool
  | .line text => Code.isUnbroken text
  | _ => true

/-- At every depth the line of an unbroken step is unbroken. -/
theorem Step.isUnbroken_text {step : Step} (hstep : step.isUnbroken = true) (depth : Nat) :
    Code.isUnbroken (step.text depth) = true := by
  cases step with
  | line written =>
    have hwritten : Code.isUnbroken written = true := hstep
    simp [text, isUnbroken_indentation, hwritten]
  | blank => rfl
  | opening => simp +decide [text, isUnbroken_indentation]
  | closing => simp +decide [text, isUnbroken_indentation]

/-- The lines of unbroken steps are unbroken. -/
theorem all_isUnbroken_layoutFrom {steps : List Step} (hsteps : steps.all Step.isUnbroken = true)
    (depth : Nat) : (layoutFrom depth steps).all isUnbroken = true := by
  induction steps generalizing depth with
  | nil => rfl
  | cons step rest ih =>
    rw [List.all_cons, Bool.and_eq_true] at hsteps
    rw [layoutFrom, List.all_cons, step.isUnbroken_text hsteps.1, ih hsteps.2]
    rfl

/-- Steps are unbroken if the texts of their lines are. -/
theorem all_isUnbroken_of_lines {steps : List Step}
    (hlines : ∀ text, .line text ∈ steps → isUnbroken text = true) :
    steps.all Step.isUnbroken = true := by
  refine List.all_eq_true.2 fun step hmem => ?_
  cases step with
  | line text => exact hlines text hmem
  | _ => rfl

/-- The names in a file are unbroken if the file is said to have such names. -/
theorem GeneratedFile.isUnbroken_of_mem_names {file : GeneratedFile}
    (hnames : file.namesUnbroken = true) : ∀ name ∈ file.names, isUnbroken name = true := by
  simp only [namesUnbroken, Bool.and_eq_true, funext GeneratedClass.namesUnbroken_eq] at hnames
  obtain ⟨⟨⟨-, husings⟩, hspace⟩, hclasses⟩ := hnames
  intro name hmem
  rcases List.mem_append.1 hmem with hmem | hmem
  · rcases List.mem_append.1 hmem with husing | hmem
    · exact List.all_eq_true.1 husings name husing
    · exact List.all_eq_true.1 hspace name (List.mem_filter.1 hmem).1
  · obtain ⟨declaration, hdeclaration, hname⟩ := List.mem_flatMap.1 hmem
    exact List.all_eq_true.1 (List.all_eq_true.1 hclasses declaration hdeclaration) name hname

/-- A file takes unbroken lines if the names in it are unbroken. -/
theorem GeneratedFile.all_isUnbroken_steps {file : GeneratedFile}
    (hnames : file.namesUnbroken = true) : file.steps.all Step.isUnbroken = true := by
  have hdeclarations : file.declarationSteps.all Step.isUnbroken = true :=
    all_isUnbroken_of_lines fun text hmem =>
      (isWritten_of_mem_declarationSteps hmem).breaks.isUnbroken (isUnbroken_of_mem_names hnames)
  rw [steps, List.append_assoc, List.all_append]
  refine Bool.and_eq_true_iff.2 ⟨?_, hdeclarations⟩
  cases hsome : file.header with
  | none => rfl
  | some header =>
    simp only [namesUnbroken, hsome, Bool.and_eq_true, Option.toList_some,
      List.flatMap_singleton] at hnames
    refine all_isUnbroken_of_lines fun text hmem => ?_
    rcases List.mem_append.1 hmem with hmem | hblank
    · obtain ⟨line, hline, heq⟩ := List.mem_map.1 hmem
      cases heq
      exact List.all_eq_true.1 hnames.1.1.1 line hline
    · cases List.mem_singleton.1 hblank

end UxmlBindings.Code
