import UxmlBindings.Proofs.Binding.MemberNames

/-!
# The two halves of a class

The bindings and the script of a document or an editor window are written to two files that declare
one class. The bindings keep what they make for elements away from everything that is reserved, and
all that the script declares is reserved; so a reserved name is declared by the bindings exactly if it
is one of their fixed names, and those the script avoids.
-/

namespace UxmlBindings.Code

/-- The names that a class gives to its members. Constructors have none. -/
def GeneratedClass.memberNames (declared : GeneratedClass) : List String :=
  declared.members.filterMap Member.name?

/-- Some method of the class calls the given method of the same object. -/
def GeneratedClass.Calls (declared : GeneratedClass) (method : String) : Prop :=
  ∃ caller, .method caller ∈ declared.members ∧ .invoke (.ident method) [] ∈ caller.body

/-- A name that a class gives to a member is the name of one. -/
theorem GeneratedClass.mem_memberNames {declared : GeneratedClass} {name : String} :
    name ∈ declared.memberNames ↔ ∃ member ∈ declared.members, member.name? = some name :=
  List.mem_filterMap

/-- Two files declare one class, each a half of it: both halves are partial, with the same name, in
the same namespace and on the same base, and no member of the one is named like a member of the
other. -/
structure Halves (first second : GeneratedFile) (one other : GeneratedClass) : Prop where
  firstClasses : first.classes = [one]
  secondClasses : second.classes = [other]
  firstPartial : one.isPartial = true
  secondPartial : other.isPartial = true
  name : one.name = other.name
  space : first.space = second.space
  base : ∃ base, one.bases = [base] ∧ other.bases = [base]
  disjoint : one.memberNames.Disjoint other.memberNames

end UxmlBindings.Code

namespace UxmlBindings.Binding

open Code

/-- The names of the members that the bindings of a shape have whatever the elements are. -/
def Shape.fixedNames (shape : Shape) : List String :=
  (shape.documentMember?.map (·.name)).toList ++ [Shape.rootName, Shape.lookupMethod]

/-- The fixed members have the fixed names. -/
theorem filterMap_name?_fixedMembers (shape : Shape) (body : List Statement) :
    (fixedMembers shape body).filterMap Member.name? = shape.fixedNames := by
  cases shape <;> rfl

/-- Of the fixed members only the method that looks up the elements has its name. -/
theorem eq_lookupMethod_of_fixed {shape : Shape} {body : List Statement} {member : Member}
    (hmember : member ∈ fixedMembers shape body)
    (hnamed : member.name? = some Shape.lookupMethod) :
    member = .method { name := Shape.lookupMethod, body } := by
  rcases List.mem_append.1 hmember with hearlier | hlater
  · have hothers : ∀ other ∈ (shape.documentMember?.map Member.field).toList ++
        (shape.constructorMember?.map Member.constructor).toList,
        other.name? ≠ some Shape.lookupMethod := by
      cases shape <;>
        simp [Shape.documentMember?, Shape.constructorMember?, Member.name?,
          Shape.documentFieldName, Shape.lookupMethod]
    exact absurd hnamed (hothers member hearlier)
  · have hroot : Shape.rootName ≠ Shape.lookupMethod := by decide
    rcases List.mem_cons.1 hlater with rfl | hmethod
    · exact absurd (Option.some.inj hnamed) hroot
    · exact List.mem_singleton.1 hmethod

/-- Reserved are the name of the class, the fixed names and those of the script. -/
theorem mem_reservedNames_iff {shape : Shape} {asset : AssetName} {name : String} :
    name ∈ shape.reservedNames asset ↔
      name = shape.bindingsClass asset ∨ name ∈ shape.fixedNames ∨ name ∈ shape.scriptNames := by
  simp only [Shape.reservedNames, Shape.fixedNames, List.mem_append, List.mem_cons,
    List.not_mem_nil, or_false]
  tauto

/-- The script has no fixed name of the bindings. -/
theorem fixedNames_disjoint_scriptNames (shape : Shape) :
    shape.fixedNames.Disjoint shape.scriptNames := by
  have hnames : ∀ name ∈ shape.fixedNames, name ∉ shape.scriptNames := by
    cases shape <;> decide
  exact List.disjoint_left.2 hnames

/-- The script's half of a class declares the names that are reserved for it. -/
theorem memberNames_scriptDeclaration {shape : Shape} (paired : shape ≠ .component)
    (asset : AssetName) : (shape.scriptDeclaration asset).memberNames = shape.scriptNames := by
  cases shape with
  | component => exact absurd rfl paired
  | document | editorWindow => rfl

section

variable {shape : Shape} {asset : AssetName} {typed kept : List BoundElement} {name : String}

/-- The fixed names are those of members. -/
theorem mem_memberNames_of_fixed (hname : name ∈ shape.fixedNames) :
    name ∈ (bindingsDeclaration shape asset kept).memberNames := by
  rw [← filterMap_name?_fixedMembers shape (kept.map elementAssignment)] at hname
  obtain ⟨member, hmember, hnamed⟩ := List.mem_filterMap.1 hname
  exact GeneratedClass.mem_memberNames.2
    ⟨member, (bindingsMembers_perm shape kept).mem_iff.2 (List.mem_append_left _ hmember), hnamed⟩

/-- A member with a reserved name is a fixed one. -/
theorem KeptApart.mem_fixedMembers (hapart : KeptApart shape asset typed kept) {member : Member}
    (hmember : member ∈ bindingsMembers shape kept) (hnamed : member.name? = some name)
    (hreserved : name ∈ shape.reservedNames asset) :
    member ∈ fixedMembers shape (kept.map elementAssignment) := by
  rcases List.mem_append.1 ((bindingsMembers_perm shape kept).mem_iff.1 hmember) with hfixed | hmade
  · exact hfixed
  · exact absurd hreserved (hapart.notMem_reservedNames hmade hnamed)

/-- Of the reserved names the bindings declare those that are fixed. -/
theorem KeptApart.mem_memberNames_iff (hapart : KeptApart shape asset typed kept)
    (hreserved : name ∈ shape.reservedNames asset) :
    name ∈ (bindingsDeclaration shape asset kept).memberNames ↔ name ∈ shape.fixedNames := by
  refine ⟨fun hname => ?_, mem_memberNames_of_fixed⟩
  obtain ⟨member, hmember, hnamed⟩ := GeneratedClass.mem_memberNames.1 hname
  rw [← filterMap_name?_fixedMembers shape (kept.map elementAssignment)]
  exact List.mem_filterMap.2 ⟨member, hapart.mem_fixedMembers hmember hnamed hreserved, hnamed⟩

/-- No member with the name of the method that looks up the elements is anything but this method. -/
theorem KeptApart.eq_lookupMethod (hapart : KeptApart shape asset typed kept) {member : Member}
    (hmember : member ∈ bindingsMembers shape kept)
    (hnamed : member.name? = some Shape.lookupMethod) :
    member = .method { name := Shape.lookupMethod, body := kept.map elementAssignment } := by
  have hreserved : Shape.lookupMethod ∈ shape.reservedNames asset :=
    mem_reservedNames_iff.2 (.inr (.inl (List.mem_append_right _ (by simp))))
  exact eq_lookupMethod_of_fixed (hapart.mem_fixedMembers hmember hnamed hreserved) hnamed

/-- No member of the script's half is named like one of the bindings. -/
theorem KeptApart.disjoint_scriptNames (hapart : KeptApart shape asset typed kept) :
    (bindingsDeclaration shape asset kept).memberNames.Disjoint shape.scriptNames := by
  intro name hbindings hscript
  have hreserved : name ∈ shape.reservedNames asset :=
    mem_reservedNames_iff.2 (.inr (.inr hscript))
  exact fixedNames_disjoint_scriptNames shape ((hapart.mem_memberNames_iff hreserved).1 hbindings)
    hscript

/-- A tree of bindings is that of elements that are kept apart. -/
theorem exists_keptApart {policy : NamePolicy} {selection : Selection} {file : GeneratedFile}
    {warnings : List Warning}
    (htree : bindingsTree policy selection shape asset = .ok (file, warnings)) :
    ∃ kept, KeptApart shape asset selection.elements kept ∧ file = bindingsFile shape asset kept := by
  obtain ⟨-, kept, clashes, hsift, hfile, -⟩ := bindingsTree_eq_ok htree
  exact ⟨kept, keptApart_of_sift hsift, hfile⟩

end

/-- The bindings of a document or an editor window, of whatever elements and under either policy, and
its script declare the two halves of one class. The script calls the method of the bindings that looks
up the elements, the only member of that name. -/
theorem bindings_script_halves (table : ElementTypes) (elements : List NamedElement) {shape : Shape}
    (paired : shape ≠ .component) {asset : AssetName} (valid : asset.check = .ok ()) :
    (∃ file warnings,
        bindingsTree .allow (Selection.ofNamed elements table) shape asset = .ok (file, warnings)) ∧
      ∀ policy file warnings,
        bindingsTree policy (Selection.ofNamed elements table) shape asset = .ok (file, warnings) →
          ∃ one other lookup,
            Halves file (shape.scriptFile asset) one other ∧
            .method lookup ∈ one.members ∧
            (∀ member ∈ one.members, member.name? = some "InitializeDocument" ↔
              member = .method lookup) ∧
            other.Calls "InitializeDocument" := by
  refine ⟨⟨_, _, bindingsTree_allow table elements shape asset valid⟩, ?_⟩
  intro policy file warnings htree
  obtain ⟨kept, hapart, rfl⟩ := exists_keptApart htree
  refine ⟨bindingsDeclaration shape asset kept, shape.scriptDeclaration asset, _, ?_,
    List.mem_append_right _ (List.mem_singleton.2 rfl), fun member hmember => ⟨?_, ?_⟩, ?_⟩
  · have hdisjoint := hapart.disjoint_scriptNames
    rw [← memberNames_scriptDeclaration paired asset] at hdisjoint
    cases shape with
    | component => exact absurd rfl paired
    | document | editorWindow => exact ⟨rfl, rfl, rfl, rfl, rfl, rfl, ⟨_, rfl, rfl⟩, hdisjoint⟩
  · exact hapart.eq_lookupMethod hmember
  · rintro rfl
    rfl
  · cases shape with
    | component => exact absurd rfl paired
    | document => exact ⟨_, List.mem_singleton.2 rfl, List.mem_singleton.2 rfl⟩
    | editorWindow =>
      exact ⟨_, List.mem_cons_of_mem _ (List.mem_singleton.2 rfl),
        List.mem_cons_of_mem _ (List.mem_singleton.2 rfl)⟩

/-- Elements whose fields would be named like the members of a window's script. -/
def pressingElements : List NamedElement :=
  [.ofName "Label" "visualTreeAsset", ⟨"Slider", "gui", "CreateGUI"⟩, .ofName "Button" "play"]

/-- An asset in a namespace, with a prefix. -/
def pressingAsset : AssetName where
  stem := "Menu"
  space := "Game.UI"
  filePrefix := "UI"

theorem bindings_script_halves_pressing :
    Shape.editorWindow ≠ .component ∧
      pressingAsset.check = .ok () ∧
      ∃ file warnings,
        bindingsTree .allow (Selection.ofNamed pressingElements .standard) .editorWindow
          pressingAsset = .ok (file, warnings) ∧
        ∃ one other lookup,
          Halves file (Shape.scriptFile .editorWindow pressingAsset) one other ∧
          .method lookup ∈ one.members ∧
          (∀ member ∈ one.members, member.name? = some "InitializeDocument" ↔
            member = .method lookup) ∧
          other.Calls "InitializeDocument" := by
  have hpaired : Shape.editorWindow ≠ .component := by decide
  have hvalid : pressingAsset.check = .ok () := by decide +kernel
  obtain ⟨⟨file, warnings, htree⟩, hhalves⟩ :=
    bindings_script_halves .standard pressingElements hpaired hvalid
  exact ⟨hpaired, hvalid, file, warnings, htree, hhalves .allow file warnings htree⟩

example :
    (bindingsOf .standard .allow pressingElements .editorWindow pressingAsset).toOption.map
        (·.warnings) =
      some [.takenMember "_visualTreeAsset" "visualTreeAsset", .takenMember "CreateGUI" "gui"] := by
  decide +kernel

end UxmlBindings.Binding
