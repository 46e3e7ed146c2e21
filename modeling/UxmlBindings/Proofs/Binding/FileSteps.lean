import UxmlBindings.Binding.Assembly
import UxmlBindings.Proofs.Binding.UnbrokenNames
import UxmlBindings.Proofs.Code.Levels
import UxmlBindings.Proofs.Code.UnbrokenLines

/-!
# The steps of a bindings file

The tree of a bindings file is built from the shape, the asset and the bound elements. Its names are
unbroken if theirs are, the number of its steps counts the bound elements only, and the method that
looks these up comes last: after it nothing but blocks is closed.
-/

namespace UxmlBindings.Binding

open Code

/-- The line of dashes around the comment that marks a file as generated. -/
def ruleLine : String :=
  "//------------------------------------------------------------------------------"

/-- The lines of this comment. -/
def headerLines : List String :=
  [ruleLine,
   "// <auto-generated>",
   "//     This code was generated by the markbind code generator.",
   "//     Version: 0.1.0",
   "//",
   "//     Changes to this file may cause incorrect behavior and will be lost if",
   "//     the code is regenerated.",
   "// </auto-generated>",
   ruleLine]

theorem all_isUnbroken_headerLines : headerLines.all isUnbroken = true := by
  simp only [headerLines, ruleLine, List.all_cons, List.all_nil, Bool.and_eq_true]
  refine ⟨?_, ?_, ?_, ?_, ?_, ?_, ?_, ?_, ?_, trivial⟩ <;>
    exact isUnbroken_of_eq_ofList rfl (by decide +kernel)

/-- The header is cut into its lines. -/
theorem lines_fileHeader : Text.lines fileHeader.toList = headerLines.map (·.toList) := by
  have hheader : fileHeader = textOfLines headerLines.dropLast ++ ruleLine := by
    decide +kernel
  have hinit : headerLines.dropLast.all isUnbroken = true :=
    List.all_eq_true.2 fun line hmem =>
      List.all_eq_true.1 all_isUnbroken_headerLines line (List.dropLast_subset _ hmem)
  rw [hheader, String.toList_append, lines_textOfLines_append hinit,
    lines_of_isUnbroken (by decide) (by decide)]
  rfl

/-! ## Unbroken names -/

/-- Whether the names that a bound element gives to the bindings are unbroken. Its property has an
unbroken name in any case. -/
def BoundElement.namesUnbroken (element : BoundElement) : Bool :=
  isUnbroken element.fieldName && isUnbroken element.binding.typeName

section

variable {element : BoundElement} (hnames : element.namesUnbroken = true)
include hnames

theorem namesUnbroken_elementField : (elementField element).namesUnbroken = true := by
  rw [BoundElement.namesUnbroken, Bool.and_eq_true] at hnames
  simp [FieldMember.namesUnbroken, elementField, hnames]

theorem namesUnbroken_elementProperty : (elementProperty element).namesUnbroken = true := by
  rw [BoundElement.namesUnbroken, Bool.and_eq_true] at hnames
  have hname : isUnbroken element.propertyName = true := isUnbroken_property _
  simp [PropertyMember.namesUnbroken, elementProperty, Expression.namesUnbroken, hnames, hname]

theorem namesUnbroken_elementAssignment : (elementAssignment element).namesUnbroken = true := by
  rw [BoundElement.namesUnbroken, Bool.and_eq_true] at hnames
  have hcall : (Shape.lookupCall element.named.declaredName).namesUnbroken = true := by
    simp +decide [Shape.lookupCall, Expression.namesUnbroken, Expression.allNamesUnbroken]
  simp [elementAssignment, Statement.namesUnbroken, Expression.namesUnbroken, hnames, hcall]

end

/-- The names in the members of the bindings class are unbroken if those of the bound elements are. -/
theorem namesUnbroken_bindingsMembers (shape : Shape) {bound : List BoundElement}
    (hbound : ∀ element ∈ bound, element.namesUnbroken = true) :
    (bindingsMembers shape bound).all Member.namesUnbroken = true := by
  have hdocument : (shape.documentMember?.map Member.field).toList.all Member.namesUnbroken = true := by
    cases shape <;> decide
  have hconstructor :
      (shape.constructorMember?.map Member.constructor).toList.all Member.namesUnbroken = true := by
    cases shape <;> decide
  have hroot : (Member.property
      { typeName := Shape.rootType, name := Shape.rootName,
        body := .getter shape.rootExpression }).namesUnbroken = true := by
    cases shape <;> decide
  have hfields : (bound.map fun element => Member.field (elementField element)).all
      Member.namesUnbroken = true := by
    rw [List.all_map]
    exact List.all_eq_true.2 fun element hmem => namesUnbroken_elementField (hbound element hmem)
  have hproperties : (if shape.exposesElements then
      bound.map fun element => Member.property (elementProperty element)
      else []).all Member.namesUnbroken = true := by
    split
    · rw [List.all_map]
      exact List.all_eq_true.2 fun element hmem =>
        namesUnbroken_elementProperty (hbound element hmem)
    · rfl
  have hmethod : (Member.method
      { name := Shape.lookupMethod,
        body := bound.map elementAssignment }).namesUnbroken = true := by
    have hname : isUnbroken Shape.lookupMethod = true := by decide
    rw [Member.namesUnbroken, MethodMember.namesUnbroken, Bool.and_eq_true, List.all_map]
    exact ⟨hname, List.all_eq_true.2 fun element hmem =>
      namesUnbroken_elementAssignment (hbound element hmem)⟩
  simp only [bindingsMembers, List.all_append, List.all_cons, List.all_nil, hdocument, hconstructor,
    hroot, hfields, hproperties, hmethod]
  rfl

/-- The names in a bindings file are unbroken if the asset is valid and the names of the bound elements
are unbroken. -/
theorem namesUnbroken_bindingsFile (shape : Shape) {asset : AssetName} (valid : asset.check = .ok ())
    {bound : List BoundElement} (hbound : ∀ element ∈ bound, element.namesUnbroken = true) :
    (bindingsFile shape asset bound).namesUnbroken = true := by
  have hheader : ((some fileHeader).toList.flatMap fun header => Text.lines header.toList).all
      (fun line => isUnbroken (String.ofList line)) = true := by
    rw [Option.toList_some, List.flatMap_singleton, lines_fileHeader, List.all_map]
    exact List.all_eq_true.2 fun line hmem => by
      simpa using List.all_eq_true.1 all_isUnbroken_headerLines line hmem
  have husings : shape.usings.all isUnbroken = true := by cases shape <;> decide
  have hbases : shape.base?.toList.all isUnbroken = true := by cases shape <;> decide
  have hdeclaration : (bindingsDeclaration shape asset bound).namesUnbroken = true := by
    simp only [GeneratedClass.namesUnbroken, bindingsDeclaration, Bool.and_eq_true]
    exact ⟨⟨isUnbroken_bindingsClass shape valid, hbases⟩,
      namesUnbroken_bindingsMembers shape hbound⟩
  have hspace : (some (shape.space asset)).toList.all isUnbroken = true := by
    simpa using isUnbroken_space shape valid
  have hclasses : [bindingsDeclaration shape asset bound].all GeneratedClass.namesUnbroken = true := by
    simpa using hdeclaration
  rw [GeneratedFile.namesUnbroken, Bool.and_eq_true, Bool.and_eq_true, Bool.and_eq_true]
  exact ⟨⟨⟨hheader, husings⟩, hspace⟩, hclasses⟩

/-! ## The number of lines -/

/-- The number of lines that the members of the bindings class take. -/
def memberCount (shape : Shape) (count : Nat) : Nat :=
  match shape with
  | .document => 14 + 2 * count
  | .component => 18 + 4 * count
  | .editorWindow => 11 + 2 * count + min count 1

/-- The method that looks up the bound elements. -/
def lookupMember (bound : List BoundElement) : MethodMember where
  name := Shape.lookupMethod
  body := bound.map elementAssignment

/-- The members of the bindings class that are no fields. -/
def otherMembers (shape : Shape) (bound : List BoundElement) : List Member :=
  (shape.constructorMember?.map Member.constructor).toList ++
    [.property
      { typeName := Shape.rootType, name := Shape.rootName, body := .getter shape.rootExpression }] ++
    (if shape.exposesElements then bound.map fun element => .property (elementProperty element)
     else []) ++
    [.method (lookupMember bound)]

/-- The fields come first. -/
theorem bindingsMembers_eq (shape : Shape) (bound : List BoundElement) :
    bindingsMembers shape bound =
      (shape.documentMember?.toList ++ bound.map elementField).map Member.field ++
        otherMembers shape bound := by
  have hfields : (shape.documentMember?.map Member.field).toList =
      shape.documentMember?.toList.map Member.field := by
    cases shape <;> rfl
  rw [bindingsMembers, otherMembers, hfields, List.map_append, List.map_map]
  simp only [List.append_assoc]
  rfl

theorem isField_otherMembers (shape : Shape) (bound : List BoundElement) :
    ∀ member ∈ otherMembers shape bound, member.isField = false := by
  intro member hmem
  simp only [otherMembers, List.mem_append, Option.mem_toList, List.mem_singleton, or_assoc] at hmem
  rcases hmem with hconstructor | rfl | hproperty | rfl
  · obtain ⟨constructor, -, rfl⟩ := Option.map_eq_some_iff.1 hconstructor
    rfl
  · rfl
  · split at hproperty
    · obtain ⟨element, -, rfl⟩ := List.mem_map.1 hproperty
      rfl
    · exact absurd hproperty List.not_mem_nil
  · rfl

theorem length_memberSteps_bindingsMembers (className : String) (shape : Shape)
    (bound : List BoundElement) :
    (memberSteps className (bindingsMembers shape bound)).length =
      memberCount shape bound.length := by
  have hcount := length_memberSteps className (shape.documentMember?.toList ++ bound.map elementField)
    (by simp [otherMembers]) (isField_otherMembers shape bound)
  have hfields : ((bound.map elementField).flatMap FieldMember.steps).length = bound.length := by
    simp [elementField, FieldMember.steps, List.length_flatMap, Function.comp_def, List.map_const']
  have hproperties : (setApart className
      (bound.map fun element => .property (elementProperty element))).length = 2 * bound.length := by
    simp [setApart, elementProperty, Member.steps, PropertyMember.steps, List.length_flatMap,
      Function.comp_def, List.map_const', Nat.mul_comm]
  have hmethod : (setApart className [.method (lookupMember bound)]).length = bound.length + 4 := by
    simp [setApart, Member.steps, MethodMember.steps, bodySteps, block, lookupMember]
  rw [← bindingsMembers_eq, otherMembers] at hcount
  simp only [setApart_append, List.flatMap_append, List.length_append, List.length_map, hfields,
    hmethod] at hcount
  cases shape with
  | document =>
    change _ + 1 = 2 + bound.length + min (1 + bound.length) 1 + (0 + 8 + 0 + (bound.length + 4))
      at hcount
    simp only [memberCount]
    omega
  | component =>
    change _ + 1 = 1 + bound.length + min (1 + bound.length) 1 +
      (5 + 8 + (setApart className _).length + (bound.length + 4)) at hcount
    rw [if_pos (show Shape.component.exposesElements = true from rfl), hproperties] at hcount
    simp only [memberCount]
    omega
  | editorWindow =>
    change _ + 1 = 0 + bound.length + min (0 + bound.length) 1 + (0 + 8 + 0 + (bound.length + 4))
      at hcount
    simp only [memberCount]
    omega

/-- The header takes its lines and a blank one. -/
theorem headerSteps_fileHeader :
    headerSteps fileHeader = headerLines.map Step.line ++ [.blank] := by
  rw [headerSteps, lines_fileHeader, List.map_map]
  simp

/-- The number of lines of a bindings file. -/
def lineCount (shape : Shape) (global : Bool) (count : Nat) : Nat :=
  match shape with
  | .document => 30 + 2 * count + if global then 0 else 3
  | .component => 37 + 4 * count
  | .editorWindow => 28 + 2 * count + min count 1 + if global then 0 else 3

theorem length_steps_bindingsFile (shape : Shape) (asset : AssetName) (bound : List BoundElement) :
    (bindingsFile shape asset bound).steps.length =
      lineCount shape asset.space.isEmpty bound.length := by
  have hheader : (headerSteps fileHeader).length = 10 := by
    rw [headerSteps_fileHeader]
    rfl
  have hclass : (bindingsDeclaration shape asset bound).steps.length =
      memberCount shape bound.length + 3 := by
    simp [GeneratedClass.steps, block, bindingsDeclaration, length_memberSteps_bindingsMembers]
  have hbody : (bindingsFile shape asset bound).bodySteps =
      if (shape.space asset).isEmpty then (bindingsDeclaration shape asset bound).steps
      else .line ("namespace " ++ shape.space asset) ::
        block (bindingsDeclaration shape asset bound).steps :=
    rfl
  have hspaced : (bindingsFile shape asset bound).bodySteps.length =
      memberCount shape bound.length + 3 + if (shape.space asset).isEmpty then 0 else 3 := by
    rw [hbody]
    split
    · exact hclass
    · simp [block, hclass]
  have hsteps : (bindingsFile shape asset bound).steps.length =
      10 + (usingSteps shape.usings).length + (bindingsFile shape asset bound).bodySteps.length := by
    rw [← hheader, ← List.length_append, ← List.length_append]
    rfl
  rw [hsteps, hspaced]
  cases shape with
  | document =>
    change 10 + 3 + (14 + 2 * bound.length + 3 + if asset.space.isEmpty then 0 else 3) =
      30 + 2 * bound.length + if asset.space.isEmpty then 0 else 3
    omega
  | component =>
    have hspace : ¬ (Shape.component.space asset).isEmpty = true :=
      show ¬ Shape.componentSpace.isEmpty = true by decide
    rw [if_neg hspace]
    change 10 + 3 + (18 + 4 * bound.length + 3 + 3) = 37 + 4 * bound.length
    omega
  | editorWindow =>
    change 10 + 4 + (11 + 2 * bound.length + min bound.length 1 + 3 +
        if asset.space.isEmpty then 0 else 3) =
      28 + 2 * bound.length + min bound.length 1 + if asset.space.isEmpty then 0 else 3
    omega

/-! ## The method that looks up the elements -/

/-- The depth of the members of the bindings class: it may be in a namespace. -/
def memberDepth (shape : Shape) (asset : AssetName) : Nat :=
  if (shape.space asset).isEmpty then 1 else 2

/-- What precedes the method leads to the depth of the members, and after it blocks are closed. -/
theorem exists_steps_bindingsFile (shape : Shape) (asset : AssetName) (bound : List BoundElement) :
    ∃ before, depthAfter 0 before = memberDepth shape asset ∧
      (bindingsFile shape asset bound).steps =
        before ++ ((lookupMember bound).steps ++
          List.replicate (memberDepth shape asset) .closing) := by
  obtain ⟨earlier, hearlier, hmembers⟩ : ∃ earlier, earlier ≠ [] ∧
      bindingsMembers shape bound = earlier ++ [.method (lookupMember bound)] :=
    ⟨_, by simp, rfl⟩
  -- The file is its preamble, perhaps the opening of a namespace, and the class, which is opened and
  -- filled up to the blank line before the method.
  let declaration := bindingsDeclaration shape asset bound
  let preamble := headerSteps fileHeader ++ usingSteps shape.usings
  let opened : List Step := [.line declaration.signature, .opening] ++
    (memberSteps declaration.name earlier ++ [.blank])
  have hpreamble : IsLevel preamble :=
    (isLevel_headerSteps fileHeader).append (isLevel_usingSteps shape.usings)
  have hopened (depth : Nat) : depthAfter depth opened = depth + 1 := by
    rw [depthAfter_append]
    have hearlier := (isArranged_memberSteps declaration.name earlier).isLevel
    exact (hearlier.append isLevel_blank) (depth + 1)
  have hclass : declaration.steps = opened ++ ((lookupMember bound).steps ++ [.closing]) := by
    have hmember : memberSteps declaration.name declaration.members =
        memberSteps declaration.name earlier ++ .blank :: (lookupMember bound).steps := by
      rw [show declaration.members = _ from hmembers,
        memberSteps_append declaration.name hearlier (by simp [Member.isField])]
      simp [setApart, Member.steps]
    simp [GeneratedClass.steps, block, hmember, opened]
  by_cases hspace : (shape.space asset).isEmpty = true
  · have hbody : (bindingsFile shape asset bound).bodySteps = declaration.steps := if_pos hspace
    refine ⟨preamble ++ opened, ?_, ?_⟩
    · rw [depthAfter_append, hpreamble, hopened, memberDepth, if_pos hspace]
    · rw [GeneratedFile.steps, hbody, hclass, memberDepth, if_pos hspace, List.append_assoc preamble]
      rfl
  · have hbody : (bindingsFile shape asset bound).bodySteps =
        .line ("namespace " ++ shape.space asset) :: block declaration.steps := if_neg hspace
    refine ⟨preamble ++ ([.line ("namespace " ++ shape.space asset), .opening] ++ opened), ?_, ?_⟩
    · rw [depthAfter_append, hpreamble, depthAfter_append, hopened, memberDepth, if_neg hspace]
      rfl
    · rw [GeneratedFile.steps, hbody, hclass, memberDepth, if_neg hspace]
      simp [block, preamble, opened, bindingsFile, List.replicate]

end UxmlBindings.Binding
