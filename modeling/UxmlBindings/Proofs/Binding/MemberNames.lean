import Mathlib.Data.List.Induction
import UxmlBindings.Proofs.Binding.Account

/-!
# Distinct names of generated members

The members of a bindings class have names of three kinds: fixed ones, fields and properties of
elements. The three kinds are kept apart. Two members can share a name only if they belong to
elements with one field name, and then a warning lists these elements; so where the policy rejects
shared fields, all names are distinct.
-/

namespace UxmlBindings.Binding

open Code

/-- Two elements with one field name among bound elements are reported together. -/
theorem sharedField_mem_of_pair {typed : List BoundElement} {first second : BoundElement}
    (hpair : [first, second].Sublist typed) (hfield : first.fieldName = second.fieldName) :
    ∃ declaredNames, first.named.declaredName ∈ declaredNames ∧
      second.named.declaredName ∈ declaredNames ∧
      .sharedField first.fieldName declaredNames ∈ sharedFieldWarnings (typed.map (·.named)) := by
  have hnames : [first.named.declaredName, second.named.declaredName].Sublist
      (declaredNamesOf first.fieldName (typed.map (·.named))) := by
    have hfiltered := ((hpair.map (·.named)).filter (·.fieldName == first.fieldName)).map
      (·.declaredName)
    have hfirst : first.named.fieldName = first.fieldName := rfl
    have hsecond : second.named.fieldName = first.fieldName := hfield.symm
    simpa [declaredNamesOf, hfirst, hsecond] using hfiltered
  refine ⟨_, hnames.subset (by simp), hnames.subset (by simp), sharedField_mem_of_length ?_⟩
  exact hnames.length_le

/-- A property is free where nothing collides and elements have properties. -/
theorem not_propertyTaken {asset : AssetName} {bound earlier : List NamedElement}
    {element : NamedElement}
    (hfree : ∀ member, ¬ Collides .component asset bound earlier element member) :
    ¬ PropertyTaken .component asset bound earlier element := by
  intro htaken
  by_cases hfield : element.fieldName ∈ Shape.component.reservedNames asset
  · exact hfree _ (.inl ⟨hfield, rfl⟩)
  · exact hfree _ (.inr ⟨hfield, rfl, rfl, htaken⟩)

/-- What keeps the members of elements apart from the fixed members and from each other. -/
structure KeptApart (shape : Shape) (asset : AssetName) (typed kept : List BoundElement) : Prop where
  part : kept.Sublist typed
  fieldFree : ∀ element ∈ kept, element.fieldName ∉ shape.reservedNames asset
  propertyFree : shape = .component → ∀ element ∈ kept,
    element.propertyName ∉ shape.reservedNames asset
  propertyNeField : shape = .component → ∀ element ∈ kept, ∀ other ∈ typed,
    element.propertyName ≠ other.fieldName
  fieldOfProperty : shape = .component → kept.Pairwise fun first second =>
    first.propertyName = second.propertyName → first.fieldName = second.fieldName

/-- Sifting keeps elements apart. -/
theorem keptApart_of_sift {shape : Shape} {asset : AssetName} {policy : NamePolicy}
    {typed kept : List BoundElement} {warnings : List Warning}
    (hsift : keepUnreserved policy shape asset typed = .ok (kept, warnings)) :
    KeptApart shape asset typed kept := by
  obtain ⟨hpart, hfree⟩ := sift_kept [] hsift
  have hcomponent (before : List BoundElement) (element : BoundElement) (after : List BoundElement)
      (hsplit : kept = before ++ element :: after) (hshape : shape = .component) :
      ¬ PropertyTaken shape asset (typed.map (·.named)) (before.map (·.named)) element.named := by
    subst hshape
    exact not_propertyTaken (hfree before element after hsplit)
  refine ⟨hpart, ?_, ?_, ?_, ?_⟩
  · intro element hmem hreserved
    obtain ⟨before, after, hsplit⟩ := List.append_of_mem hmem
    exact hfree before element after hsplit _ (.inl ⟨hreserved, rfl⟩)
  · intro hshape element hmem hreserved
    obtain ⟨before, after, hsplit⟩ := List.append_of_mem hmem
    exact hcomponent before element after hsplit hshape (.inl hreserved)
  · intro hshape element hmem other hother heq
    obtain ⟨before, after, hsplit⟩ := List.append_of_mem hmem
    exact hcomponent before element after hsplit hshape
      (.inr (.inl ⟨other.named, List.mem_map_of_mem hother, heq.symm⟩))
  · intro hshape
    rw [List.pairwise_iff_forall_sublist]
    intro first second hpair hproperty
    obtain ⟨before, rest, hsplit, hfirst, hsecond⟩ := List.cons_sublist_iff.1 hpair
    obtain ⟨middle, after, hrest⟩ := List.append_of_mem (List.singleton_sublist.1 hsecond)
    by_contra hfield
    refine hcomponent (before ++ middle) second after ?_ hshape (.inr (.inr ⟨first.named, ?_,
      hproperty, hfield⟩))
    · rw [hsplit, hrest, List.append_assoc]
    · exact List.mem_map_of_mem (List.mem_append_left middle hfirst)

/-- Two members belong to elements with one field name: both are their fields or both are their
properties, and a warning lists both elements. -/
def SharesByField (kept : List BoundElement) (warnings : List Warning) (first second : Member) :
    Prop :=
  ∃ one ∈ kept, ∃ other ∈ kept, one.fieldName = other.fieldName ∧
    ((first = .field (elementField one) ∧ second = .field (elementField other)) ∨
      (first = .property (elementProperty one) ∧ second = .property (elementProperty other))) ∧
    ∃ declaredNames, one.named.declaredName ∈ declaredNames ∧
      other.named.declaredName ∈ declaredNames ∧
      .sharedField one.fieldName declaredNames ∈ warnings

/-- More warnings do not matter. -/
theorem SharesByField.mono {kept : List BoundElement} {warnings more : List Warning}
    {first second : Member} (h : SharesByField kept warnings first second)
    (hsubset : warnings ⊆ more) : SharesByField kept more first second := by
  obtain ⟨one, hone, other, hother, hfield, hkind, names, honeName, hotherName, hwarning⟩ := h
  exact ⟨one, hone, other, hother, hfield, hkind, names, honeName, hotherName, hsubset hwarning⟩

/-- Two members share their name only because their elements share a field. -/
def NamedApart (kept : List BoundElement) (warnings : List Warning) (first second : Member) : Prop :=
  ∀ name, first.name? = some name → second.name? = some name →
    SharesByField kept warnings first second

/-- Being named apart does not depend on which member comes first. -/
theorem NamedApart.symm {kept : List BoundElement} {warnings : List Warning} {first second : Member}
    (h : NamedApart kept warnings first second) : NamedApart kept warnings second first := by
  intro name hsecond hfirst
  obtain ⟨one, hone, other, hother, hfield, hkind, names, honeName, hotherName, hwarning⟩ :=
    h name hfirst hsecond
  refine ⟨other, hother, one, hone, hfield.symm, ?_, names, hotherName, honeName, hfield ▸ hwarning⟩
  rcases hkind with ⟨rfl, rfl⟩ | ⟨rfl, rfl⟩
  · exact .inl ⟨rfl, rfl⟩
  · exact .inr ⟨rfl, rfl⟩

/-- The members that a class of the shape has whatever its elements are. -/
def fixedMembers (shape : Shape) (body : List Statement) : List Member :=
  (shape.documentMember?.map Member.field).toList ++
    (shape.constructorMember?.map Member.constructor).toList ++
    [.property
      { typeName := Shape.rootType, name := Shape.rootName, body := .getter shape.rootExpression },
     .method { name := Shape.lookupMethod, body }]

/-- The properties of elements, for shapes that have them. -/
def elementProperties (shape : Shape) (kept : List BoundElement) : List Member :=
  if shape.exposesElements then kept.map fun element => .property (elementProperty element) else []

/-- A class has its fixed members and those of its elements, and no others. -/
theorem bindingsMembers_perm (shape : Shape) (kept : List BoundElement) :
    (bindingsMembers shape kept).Perm
      (fixedMembers shape (kept.map elementAssignment) ++
        (kept.map (fun element => .field (elementField element)) ++
          elementProperties shape kept)) := by
  unfold bindingsMembers fixedMembers
  simp only [List.append_assoc]
  apply List.Perm.append_left
  refine (List.perm_append_comm_assoc _ _ _).trans (List.Perm.append_left _ ?_)
  refine (List.perm_append_comm_assoc _ _ _).trans (List.Perm.cons _ ?_)
  let fields := kept.map fun element => Member.field (elementField element)
  let method := Member.method { name := Shape.lookupMethod, body := kept.map elementAssignment }
  change (fields ++ (elementProperties shape kept ++ [method])).Perm
    ([method] ++ (fields ++ elementProperties shape kept))
  rw [← List.append_assoc]
  exact List.perm_append_comm

/-- The names of the fixed members are reserved. -/
theorem mem_reservedNames_of_fixed (shape : Shape) (asset : AssetName) (body : List Statement) :
    ∀ member ∈ fixedMembers shape body, ∀ name, member.name? = some name →
      name ∈ shape.reservedNames asset := by
  cases shape <;>
    simp [fixedMembers, Shape.documentMember?, Shape.constructorMember?, Member.name?,
      Shape.reservedNames]

/-- The fixed members have distinct names. -/
theorem fixedMembers_pairwise (shape : Shape) (body : List Statement) (kept : List BoundElement)
    (warnings : List Warning) :
    (fixedMembers shape body).Pairwise (NamedApart kept warnings) := by
  cases shape <;>
    simp [fixedMembers, Shape.documentMember?, Shape.constructorMember?, NamedApart, Member.name?,
      Shape.documentFieldName, Shape.rootName, Shape.lookupMethod]

section

variable {shape : Shape} {asset : AssetName} {typed kept : List BoundElement}

/-- A member of a kept element is its field, or its property in a component. -/
theorem eq_field_or_property {member : Member}
    (hmember : member ∈ kept.map (fun element => Member.field (elementField element)) ++
      elementProperties shape kept) :
    ∃ element ∈ kept, member = .field (elementField element) ∨
      (shape = .component ∧ member = .property (elementProperty element)) := by
  rcases List.mem_append.1 hmember with hfield | hproperty
  · obtain ⟨element, hmem, rfl⟩ := List.mem_map.1 hfield
    exact ⟨element, hmem, .inl rfl⟩
  · unfold elementProperties at hproperty
    split at hproperty
    · rename_i hexposes
      obtain ⟨element, hmem, rfl⟩ := List.mem_map.1 hproperty
      exact ⟨element, hmem, .inr ⟨(exposesElements_iff shape).1 hexposes, rfl⟩⟩
    · cases hproperty

/-- No member of a kept element has a reserved name. -/
theorem KeptApart.notMem_reservedNames (hapart : KeptApart shape asset typed kept)
    {member : Member} {name : String}
    (hmember : member ∈ kept.map (fun element => Member.field (elementField element)) ++
      elementProperties shape kept)
    (hname : member.name? = some name) : name ∉ shape.reservedNames asset := by
  obtain ⟨element, hmem, rfl | ⟨hshape, rfl⟩⟩ := eq_field_or_property hmember
  · obtain rfl := Option.some.inj hname
    exact hapart.fieldFree element hmem
  · obtain rfl := Option.some.inj hname
    exact hapart.propertyFree hshape element hmem

/-- Kept elements with one field name are reported together. -/
theorem KeptApart.sharesByField (hapart : KeptApart shape asset typed kept)
    {one other : BoundElement} (hpair : [one, other].Sublist kept)
    (hfield : one.fieldName = other.fieldName) {first second : Member}
    (hkind : (first = .field (elementField one) ∧ second = .field (elementField other)) ∨
      (first = .property (elementProperty one) ∧ second = .property (elementProperty other))) :
    SharesByField kept (sharedFieldWarnings (typed.map (·.named))) first second :=
  ⟨one, hpair.subset (by simp), other, hpair.subset (by simp), hfield, hkind,
    sharedField_mem_of_pair (hpair.trans hapart.part) hfield⟩

/-- The members of kept elements are named apart. -/
theorem KeptApart.pairwise_elements (hapart : KeptApart shape asset typed kept) :
    (kept.map (fun element => Member.field (elementField element)) ++
      elementProperties shape kept).Pairwise
        (NamedApart kept (sharedFieldWarnings (typed.map (·.named)))) := by
  rw [List.pairwise_append]
  refine ⟨?_, ?_, ?_⟩
  · rw [List.pairwise_map, List.pairwise_iff_forall_sublist]
    intro one other hpair name hone hother
    have hfield : one.fieldName = other.fieldName :=
      (Option.some.inj hone).trans (Option.some.inj hother).symm
    exact hapart.sharesByField hpair hfield (.inl ⟨rfl, rfl⟩)
  · unfold elementProperties
    split
    · rename_i hexposes
      have hshape := (exposesElements_iff shape).1 hexposes
      rw [List.pairwise_map, List.pairwise_iff_forall_sublist]
      intro one other hpair name hone hother
      have hproperty : one.propertyName = other.propertyName :=
        (Option.some.inj hone).trans (Option.some.inj hother).symm
      have hfield := List.pairwise_iff_forall_sublist.1 (hapart.fieldOfProperty hshape) hpair hproperty
      exact hapart.sharesByField hpair hfield (.inr ⟨rfl, rfl⟩)
    · exact List.Pairwise.nil
  · intro first hfirst second hsecond name hfirstName hsecondName
    obtain ⟨one, hone, rfl⟩ := List.mem_map.1 hfirst
    unfold elementProperties at hsecond
    split at hsecond
    · rename_i hexposes
      obtain ⟨other, hother, rfl⟩ := List.mem_map.1 hsecond
      have hsame : other.propertyName = one.fieldName :=
        (Option.some.inj hsecondName).trans (Option.some.inj hfirstName).symm
      exact absurd hsame (hapart.propertyNeField ((exposesElements_iff shape).1 hexposes) other hother
        one (hapart.part.subset hone))
    · cases hsecond

/-- All members of a class are named apart. -/
theorem KeptApart.pairwise_members (hapart : KeptApart shape asset typed kept) :
    (bindingsMembers shape kept).Pairwise
      (NamedApart kept (sharedFieldWarnings (typed.map (·.named)))) := by
  rw [(bindingsMembers_perm shape kept).pairwise_iff fun h => h.symm, List.pairwise_append]
  refine ⟨fixedMembers_pairwise shape _ kept _, hapart.pairwise_elements, ?_⟩
  intro first hfirst second hsecond name hfirstName hsecondName
  exact absurd (mem_reservedNames_of_fixed shape asset _ first hfirst name hfirstName)
    (hapart.notMem_reservedNames hsecond hsecondName)

end

/-- Where the policy rejects shared fields, none is accepted. -/
theorem not_sharedField_of_accept {warnings accepted : List Warning}
    (haccept : NamePolicy.reject.accept warnings = .ok accepted) (fieldName : String)
    (declaredNames : List String) : .sharedField fieldName declaredNames ∉ warnings := by
  induction warnings generalizing accepted with
  | nil => simp
  | cons warning rest ih =>
    cases warning with
    | sharedField => simp [NamePolicy.accept] at haccept
    | untypedTag | takenMember =>
      simp only [NamePolicy.accept] at haccept
      obtain ⟨others, hrest, -⟩ := bind_eq_ok_iff.1 haccept
      simp [ih hrest]

/-- Where no shared field is reported, members that are named apart have distinct names. -/
theorem nodup_memberNames {members : List Member} {kept : List BoundElement}
    {warnings : List Warning} (hnamed : members.Pairwise (NamedApart kept warnings))
    (hnone : ∀ fieldName declaredNames, .sharedField fieldName declaredNames ∉ warnings) :
    (members.filterMap Member.name?).Nodup := by
  refine List.Pairwise.filterMap _ ?_ hnamed
  rintro first second hapart name hfirst _ hsecond rfl
  obtain ⟨_, _, _, _, _, _, names, _, _, hwarning⟩ := hapart name hfirst hsecond
  exact hnone _ names hwarning

/-- The bindings of any named elements keep apart what their class declares: members of elements
take no reserved name, a property takes no field's name, and members share a name only if their
elements share a field, which a warning reports. Where the policy rejects shared fields, all names
differ. -/
theorem bindingsOf_memberNames (table : ElementTypes) (elements : List NamedElement) (shape : Shape)
    (asset : AssetName) (valid : asset.check = .ok ()) :
    (∃ generated, bindingsOf table .allow elements shape asset = .ok generated) ∧
      ∀ policy generated, bindingsOf table policy elements shape asset = .ok generated →
        ∃ file declaration kept,
          bindingsTree policy (Selection.ofNamed elements table) shape asset =
            .ok (file, generated.warnings) ∧
          generated.code = file.render ∧
          file.classes = [declaration] ∧
          declaration.members = bindingsMembers shape kept ∧
          KeptApart shape asset (Selection.ofNamed elements table).elements kept ∧
          declaration.members.Pairwise (NamedApart kept generated.warnings) ∧
          (policy = .reject → (declaration.members.filterMap Member.name?).Nodup) := by
  constructor
  · rw [bindingsOf, renderSelection, bindingsTree_allow table elements shape asset valid]
    exact ⟨_, rfl⟩
  · intro policy generated hgenerated
    obtain ⟨⟨file, warnings⟩, htree, hresult⟩ := bind_eq_ok_iff.1 hgenerated
    simp only [pure, Except.pure, Except.ok.injEq] at hresult
    subst hresult
    obtain ⟨haccept, kept, clashes, hsift, rfl, rfl⟩ := bindingsTree_eq_ok htree
    have hapart := keptApart_of_sift hsift
    have hnamed := hapart.pairwise_members
    refine ⟨_, bindingsDeclaration shape asset kept, kept, htree, ?_, rfl, rfl, hapart, ?_, ?_⟩
    · dsimp only
    · refine hnamed.imp fun {first second} hfirst name hfirstName hsecondName => ?_
      refine (hfirst name hfirstName hsecondName).mono fun warning hwarning => ?_
      exact List.mem_append_left _ (List.mem_append_right _ hwarning)
    · rintro rfl
      refine nodup_memberNames hnamed fun fieldName declaredNames hmem => ?_
      exact not_sharedField_of_accept haccept fieldName declaredNames (List.mem_append_right _ hmem)

/-- Elements two of which have one field, one has a reserved property, and one the property of
another field. -/
def crowdedElements : List NamedElement :=
  [.ofName "Button" "play-now", .ofName "Label" "play_now", .ofName "Toggle" "root",
    ⟨"Slider", "playNow", "m_volume"⟩]

theorem bindingsOf_memberNames_crowded :
    AssetName.check { stem := "Menu" } = .ok () ∧
      (∃ generated, bindingsOf .standard .allow crowdedElements .component { stem := "Menu" } =
        .ok generated) ∧
      ∀ policy generated,
        bindingsOf .standard policy crowdedElements .component { stem := "Menu" } = .ok generated →
        ∃ file declaration kept,
          bindingsTree policy (Selection.ofNamed crowdedElements .standard) .component
            { stem := "Menu" } = .ok (file, generated.warnings) ∧
          generated.code = file.render ∧
          file.classes = [declaration] ∧
          declaration.members = bindingsMembers .component kept ∧
          KeptApart .component { stem := "Menu" }
            (Selection.ofNamed crowdedElements .standard).elements kept ∧
          declaration.members.Pairwise (NamedApart kept generated.warnings) ∧
          (policy = .reject → (declaration.members.filterMap Member.name?).Nodup) :=
  ⟨by decide +kernel,
    bindingsOf_memberNames .standard crowdedElements .component { stem := "Menu" }
      (by decide +kernel)⟩

example :
    (bindingsOf .standard .allow crowdedElements .component { stem := "Menu" }).toOption.map
        (·.warnings) =
      some [.sharedField "_play_now" ["play-now", "play_now"], .takenMember "Root" "root",
        .takenMember "PlayNow" "playNow"] := by
  decide +kernel

end UxmlBindings.Binding
