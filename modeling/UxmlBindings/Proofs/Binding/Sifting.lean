import Mathlib.Data.List.Basic
import UxmlBindings.Binding.Assembly
import UxmlBindings.Proofs.Outcome

/-!
# Collisions of member names

`Collides` says when the members of an element collide with others, without the order in which the
assembly looks for it. The assembly's own test agrees with it, and the sifted elements are an
ordered part of the given ones in which nothing collides with what stands before it.
-/

namespace UxmlBindings.Binding

open Code

/-- The property of an element is reserved, is named like the field of a bound element, or is that
of an earlier element with another field. -/
def PropertyTaken (shape : Shape) (asset : AssetName) (bound earlier : List NamedElement)
    (element : NamedElement) : Prop :=
  element.propertyName ∈ shape.reservedNames asset ∨
    (∃ other ∈ bound, other.fieldName = element.propertyName) ∨
    ∃ other ∈ earlier,
      other.propertyName = element.propertyName ∧ other.fieldName ≠ element.fieldName

/-- The members of an element collide under a name: that of its field, which is reserved, or that of
its property, if elements have properties. -/
def Collides (shape : Shape) (asset : AssetName) (bound earlier : List NamedElement)
    (element : NamedElement) (member : String) : Prop :=
  (element.fieldName ∈ shape.reservedNames asset ∧ member = element.fieldName) ∨
    (element.fieldName ∉ shape.reservedNames asset ∧ shape = .component ∧
      member = element.propertyName ∧ PropertyTaken shape asset bound earlier element)

/-- The property of an element with the field that it returns. -/
def BoundElement.slot (element : BoundElement) : String × String :=
  (element.propertyName, element.fieldName)

/-- The slots after one more element. -/
theorem slots_concat (earlier : List BoundElement) (element : BoundElement) :
    earlier.map BoundElement.slot ++ [(element.propertyName, element.fieldName)] =
      (earlier ++ [element]).map BoundElement.slot := by
  simp [BoundElement.slot]

/-- Components are the shape whose elements have properties. -/
theorem exposesElements_iff (shape : Shape) : shape.exposesElements = true ↔ shape = .component := by
  cases shape <;> simp [Shape.exposesElements]

/-- The three tests of a property find exactly the properties that are taken. -/
theorem propertyTaken_iff (shape : Shape) (asset : AssetName) (bound earlier : List BoundElement)
    (element : BoundElement) :
    ((surroundings shape asset bound).reserved.contains element.propertyName ||
        (surroundings shape asset bound).fields.contains element.propertyName ||
        (earlier.map BoundElement.slot).any (fun (other, field) =>
          other == element.propertyName && field != element.fieldName)) = true ↔
      PropertyTaken shape asset (bound.map (·.named)) (earlier.map (·.named)) element.named := by
  simp [PropertyTaken, surroundings, BoundElement.slot, BoundElement.propertyName,
    BoundElement.fieldName, or_assoc]

/-- The assembly's test finds a collision exactly where there is one. -/
theorem clash?_eq_some_iff (shape : Shape) (asset : AssetName) (bound earlier : List BoundElement)
    (element : BoundElement) (member : String) :
    (surroundings shape asset bound).clash? (earlier.map BoundElement.slot) element = some member ↔
      Collides shape asset (bound.map (·.named)) (earlier.map (·.named)) element.named member := by
  have hexposes : (surroundings shape asset bound).exposes = true ↔ shape = .component :=
    exposesElements_iff shape
  have hreserved : (surroundings shape asset bound).reserved.contains element.fieldName = true ↔
      element.named.fieldName ∈ shape.reservedNames asset :=
    List.contains_iff_mem
  have htaken := propertyTaken_iff shape asset bound earlier element
  unfold Surroundings.clash? Collides
  by_cases hfield : element.named.fieldName ∈ shape.reservedNames asset
  · rw [if_pos (hreserved.2 hfield)]
    simp only [hfield, true_and, not_true_eq_false, false_and, or_false, Option.some.injEq]
    exact eq_comm
  · rw [if_neg (mt hreserved.1 hfield)]
    simp only [hfield, false_and, not_false_eq_true, true_and, false_or]
    by_cases hshape : shape = .component
    · rw [if_pos (hexposes.2 hshape)]
      by_cases hproperty :
          PropertyTaken shape asset (bound.map (·.named)) (earlier.map (·.named)) element.named
      · rw [if_pos (htaken.2 hproperty)]
        simp only [Option.some.injEq, hshape, true_and]
        exact ⟨fun h => ⟨h.symm, hshape ▸ hproperty⟩, fun h => h.1.symm⟩
      · rw [if_neg (mt htaken.1 hproperty)]
        simp [hproperty]
    · rw [if_neg (mt hexposes.1 hshape)]
      simp [hshape]

/-- Nothing collides where the assembly's test finds nothing. -/
theorem clash?_eq_none_iff (shape : Shape) (asset : AssetName) (bound earlier : List BoundElement)
    (element : BoundElement) :
    (surroundings shape asset bound).clash? (earlier.map BoundElement.slot) element = none ↔
      ∀ member, ¬ Collides shape asset (bound.map (·.named)) (earlier.map (·.named)) element.named
        member := by
  rw [Option.eq_none_iff_forall_ne_some]
  exact forall_congr' fun member =>
    not_congr (clash?_eq_some_iff shape asset bound earlier element member)

/-- What sifting keeps is an ordered part of the elements, and no element of it collides with the
earlier ones or with those kept before it. -/
theorem sift_kept {shape : Shape} {asset : AssetName} {policy : NamePolicy}
    {bound elements kept : List BoundElement} {warnings : List Warning}
    (earlier : List BoundElement)
    (hsift : (surroundings shape asset bound).sift policy (earlier.map BoundElement.slot) elements =
      .ok (kept, warnings)) :
    kept.Sublist elements ∧
      ∀ before element after, kept = before ++ element :: after → ∀ member,
        ¬ Collides shape asset (bound.map (·.named)) ((earlier ++ before).map (·.named))
          element.named member := by
  induction elements generalizing earlier kept warnings with
  | nil =>
    simp only [Surroundings.sift, Except.ok.injEq, Prod.mk.injEq] at hsift
    obtain ⟨rfl, rfl⟩ := hsift
    exact ⟨List.Sublist.refl _, fun before element after h => by simp at h⟩
  | cons first rest ih =>
    cases hclash :
        (surroundings shape asset bound).clash? (earlier.map BoundElement.slot) first with
    | some member =>
      cases policy with
      | reject => simp [Surroundings.sift, hclash] at hsift
      | allow =>
        simp only [Surroundings.sift, hclash] at hsift
        obtain ⟨⟨others, clashes⟩, hrest, heq⟩ := bind_eq_ok_iff.1 hsift
        simp only [pure, Except.pure, Except.ok.injEq, Prod.mk.injEq] at heq
        obtain ⟨rfl, rfl⟩ := heq
        obtain ⟨hpart, hfree⟩ := ih earlier hrest
        exact ⟨hpart.cons first, hfree⟩
    | none =>
      simp only [Surroundings.sift, hclash] at hsift
      obtain ⟨⟨others, clashes⟩, hrest, heq⟩ := bind_eq_ok_iff.1 hsift
      simp only [pure, Except.pure, Except.ok.injEq, Prod.mk.injEq] at heq
      obtain ⟨rfl, rfl⟩ := heq
      rw [slots_concat] at hrest
      obtain ⟨hpart, hfree⟩ := ih (earlier ++ [first]) hrest
      refine ⟨hpart.cons_cons first, ?_⟩
      intro before element after hsplit
      cases before with
      | nil =>
        obtain ⟨rfl, rfl⟩ := List.cons.inj hsplit
        simpa using (clash?_eq_none_iff shape asset bound earlier first).1 hclash
      | cons head before =>
        obtain ⟨rfl, hothers⟩ := List.cons.inj hsplit
        simpa using hfree before element after hothers

/-- What is accepted is all that there is. -/
theorem eq_of_accept {policy : NamePolicy} {warnings accepted : List Warning}
    (haccept : policy.accept warnings = .ok accepted) : accepted = warnings := by
  induction warnings generalizing accepted with
  | nil =>
    simp only [NamePolicy.accept, Except.ok.injEq] at haccept
    exact haccept.symm
  | cons warning rest ih =>
    unfold NamePolicy.accept at haccept
    split at haccept
    · cases haccept
    · obtain ⟨others, hrest, heq⟩ := bind_eq_ok_iff.1 haccept
      simp only [pure, Except.pure, Except.ok.injEq] at heq
      rw [← heq, ih hrest]

/-- What the tree of the bindings file consists of. -/
theorem bindingsTree_eq_ok {policy : NamePolicy} {selection : Selection} {shape : Shape}
    {asset : AssetName} {file : Code.GeneratedFile} {warnings : List Warning}
    (htree : bindingsTree policy selection shape asset = .ok (file, warnings)) :
    policy.accept selection.warnings = .ok selection.warnings ∧
      ∃ kept clashes, keepUnreserved policy shape asset selection.elements = .ok (kept, clashes) ∧
        file = bindingsFile shape asset kept ∧ warnings = selection.warnings ++ clashes := by
  unfold bindingsTree at htree
  split at htree
  · cases htree
  obtain ⟨accepted, haccept, hsteps⟩ := bind_eq_ok_iff.1 htree
  obtain ⟨⟨kept, clashes⟩, hsift, hfile⟩ := bind_eq_ok_iff.1 hsteps
  simp only [pure, Except.pure, Except.ok.injEq, Prod.mk.injEq] at hfile
  obtain ⟨hfile, hwarnings⟩ := hfile
  obtain rfl := eq_of_accept haccept
  exact ⟨haccept, kept, clashes, hsift, hfile.symm, hwarnings.symm⟩

end UxmlBindings.Binding
