import UxmlBindings.Proofs.Binding.Account

/-!
# What a rejecting policy makes of the warnings

Both policies see the same elements in the same order. A run that rejects stops at the first field
that several elements share, or else at the first member that is already declared; up to there it is
in step with the run that allows them. So the outcome of the one can be read off the warnings of the
other: `rejection?` is the error, if there is one, and otherwise both runs have the same outcome.
-/

namespace UxmlBindings.Binding

/-- The error that a shared field becomes. -/
def Warning.sharedError? : Warning → Option GenerationError
  | .sharedField fieldName declaredNames => some (.sharedField fieldName declaredNames)
  | _ => none

/-- The error that a member becomes that is already declared. -/
def Warning.takenError? : Warning → Option GenerationError
  | .takenMember memberName declaredName => some (.takenMember memberName declaredName)
  | _ => none

/-- The error that warnings become if they are rejected: the first shared field comes before every
member that is already declared. -/
def rejection? (warnings : List Warning) : Option GenerationError :=
  (warnings.findSome? Warning.sharedError?).or (warnings.findSome? Warning.takenError?)

/-- A policy that rejects shared fields accepts the warnings if there is none. -/
theorem accept_reject (warnings : List Warning) :
    NamePolicy.reject.accept warnings =
      (warnings.findSome? Warning.sharedError?).elim (.ok warnings) .error := by
  induction warnings with
  | nil => rfl
  | cons warning rest ih =>
    cases warning with
    | sharedField fieldName declaredNames => rfl
    | _ =>
      rw [NamePolicy.accept, ih, List.findSome?_cons]
      · dsimp only [Warning.sharedError?]
        cases rest.findSome? Warning.sharedError? <;> rfl
      · intro _ _ h
        cases h

/-- Sifting under a policy that rejects is in step with sifting under one that allows, up to the
first collision. -/
theorem sift_reject (surroundings : Surroundings) (slots : List (String × String))
    (elements : List BoundElement) :
    ∃ kept clashes, surroundings.sift .allow slots elements = .ok (kept, clashes) ∧
      (∀ warning ∈ clashes, ∃ memberName declaredName,
        warning = .takenMember memberName declaredName) ∧
      surroundings.sift .reject slots elements =
        (clashes.findSome? Warning.takenError?).elim (.ok (kept, clashes)) .error := by
  induction elements generalizing slots with
  | nil => exact ⟨[], [], rfl, fun warning h => absurd h List.not_mem_nil, rfl⟩
  | cons element rest ih =>
    cases hclash : surroundings.clash? slots element with
    | some member =>
      obtain ⟨kept, clashes, hallow, htaken, -⟩ := ih slots
      refine ⟨kept, .takenMember member element.named.declaredName :: clashes, ?_, ?_, ?_⟩
      · simp only [Surroundings.sift, hclash, hallow]
        rfl
      · rintro warning (_ | ⟨_, hmem⟩)
        · exact ⟨_, _, rfl⟩
        · exact htaken warning hmem
      · simp only [Surroundings.sift, hclash]
        rfl
    | none =>
      obtain ⟨kept, clashes, hallow, htaken, hreject⟩ :=
        ih (slots ++ [(element.propertyName, element.fieldName)])
      refine ⟨element :: kept, clashes, ?_, htaken, ?_⟩
      · simp only [Surroundings.sift, hclash, hallow]
        rfl
      · simp only [Surroundings.sift, hclash, hreject]
        cases clashes.findSome? Warning.takenError? <;> rfl

/-- The selection warns about tags without type and about shared fields, not about members. -/
theorem takenError?_of_mem_ofNamed {table : ElementTypes} {elements : List NamedElement}
    {warning : Warning} (hmem : warning ∈ (Selection.ofNamed elements table).warnings) :
    warning.takenError? = none := by
  rcases List.mem_append.1 hmem with huntyped | hshared
  · obtain ⟨element, -, hwarning⟩ := List.mem_filterMap.1 huntyped
    unfold untypedWarning? at hwarning
    split at hwarning
    · cases hwarning
    · obtain rfl := Option.some.inj hwarning
      rfl
  · obtain ⟨fieldName, declaredNames, rfl⟩ := eq_sharedField_of_mem hshared
    rfl

/-- For a valid asset the bindings under a policy that rejects are those under one that allows,
unless a warning becomes an error. -/
theorem bindingsOf_of_check (table : ElementTypes) (elements : List NamedElement) (shape : Shape)
    {asset : AssetName} (valid : asset.check = .ok ()) :
    ∃ generated, bindingsOf table .allow elements shape asset = .ok generated ∧
      bindingsOf table .reject elements shape asset =
        (rejection? generated.warnings).elim (.ok generated) .error := by
  let selection := Selection.ofNamed elements table
  obtain ⟨kept, clashes, hallow, htaken, hreject⟩ :=
    sift_reject (surroundings shape asset selection.elements) [] selection.elements
  refine ⟨⟨shape.bindingsClass asset, (bindingsFile shape asset kept).render,
    selection.warnings ++ clashes⟩, ?_, ?_⟩
  · rw [bindingsOf, renderSelection, bindingsTree, valid]
    simp only [accept_allow, keepUnreserved]
    rw [hallow]
    rfl
  · have hshared : (selection.warnings ++ clashes).findSome? Warning.sharedError? =
        selection.warnings.findSome? Warning.sharedError? := by
      have hnone : clashes.findSome? Warning.sharedError? = none := by
        refine List.findSome?_eq_none_iff.2 fun warning hmem => ?_
        obtain ⟨memberName, declaredName, rfl⟩ := htaken warning hmem
        rfl
      rw [List.findSome?_append, hnone, Option.or_none]
    have hcollisions : (selection.warnings ++ clashes).findSome? Warning.takenError? =
        clashes.findSome? Warning.takenError? := by
      have hnone : selection.warnings.findSome? Warning.takenError? = none :=
        List.findSome?_eq_none_iff.2 fun warning hmem => takenError?_of_mem_ofNamed hmem
      rw [List.findSome?_append, hnone, Option.none_or]
    rw [bindingsOf, renderSelection, bindingsTree, valid]
    simp only [accept_reject, keepUnreserved, rejection?]
    rw [hshared, hcollisions, hreject]
    cases selection.warnings.findSome? Warning.sharedError? with
    | some error => rfl
    | none => cases clashes.findSome? Warning.takenError? <;> rfl

/-- Nothing is rejected exactly if no warning is about a shared field or a member. -/
theorem rejection?_eq_none_iff {warnings : List Warning} :
    rejection? warnings = none ↔
      (∀ fieldName declaredNames, .sharedField fieldName declaredNames ∉ warnings) ∧
        ∀ memberName declaredName, .takenMember memberName declaredName ∉ warnings := by
  rw [rejection?, Option.or_eq_none_iff, List.findSome?_eq_none_iff, List.findSome?_eq_none_iff]
  constructor
  · intro ⟨hshared, htaken⟩
    refine ⟨fun fieldName declaredNames hmem => ?_, fun memberName declaredName hmem => ?_⟩
    · cases hshared _ hmem
    · cases htaken _ hmem
  · intro ⟨hshared, htaken⟩
    refine ⟨fun warning hmem => ?_, fun warning hmem => ?_⟩
    · cases warning with
      | sharedField fieldName declaredNames => exact absurd hmem (hshared _ _)
      | _ => rfl
    · cases warning with
      | takenMember memberName declaredName => exact absurd hmem (htaken _ _)
      | _ => rfl

/-- Both policies refuse an asset that is not valid, for the same reason. For a valid one there are
bindings under the policy that allows. Under the one that rejects there are bindings exactly if these
come without a warning about a shared field or a member, and they are the same; otherwise it fails
with the first shared field, or else with the first member that is already declared. -/
theorem bindingsOf_reject (table : ElementTypes) (elements : List NamedElement) (shape : Shape)
    (asset : AssetName) :
    (∃ fault, asset.check = .error fault ∧
        ∀ policy, bindingsOf table policy elements shape asset = .error (.badAsset fault)) ∨
      ∃ generated, asset.check = .ok () ∧
        bindingsOf table .allow elements shape asset = .ok generated ∧
        ((∃ accepted, bindingsOf table .reject elements shape asset = .ok accepted) ↔
          (∀ fieldName declaredNames, .sharedField fieldName declaredNames ∉ generated.warnings) ∧
            ∀ memberName declaredName, .takenMember memberName declaredName ∉ generated.warnings) ∧
        bindingsOf table .reject elements shape asset =
          (rejection? generated.warnings).elim (.ok generated) .error := by
  cases hcheck : asset.check with
  | error fault =>
    refine .inl ⟨fault, rfl, fun policy => ?_⟩
    rw [bindingsOf, renderSelection, bindingsTree, hcheck]
    rfl
  | ok =>
    obtain ⟨generated, hallow, hreject⟩ := bindingsOf_of_check table elements shape hcheck
    refine .inr ⟨generated, rfl, hallow, ?_, hreject⟩
    rw [← rejection?_eq_none_iff, hreject]
    cases rejection? generated.warnings with
    | none => exact ⟨fun _ => rfl, fun _ => ⟨generated, rfl⟩⟩
    | some error =>
      constructor
      · rintro ⟨accepted, h⟩
        cases h
      · intro h
        cases h

end UxmlBindings.Binding
