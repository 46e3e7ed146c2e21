import UxmlBindings.Proofs.Binding.MemberNames

/-!
# Elements that share a field

The groups of declared names come in the order in which their fields first occur, and no field has two
of them. So a selection keeps the elements whose tag has a type, in order, and warns of every other
element, and then once of every field that several kept elements have.
-/

namespace UxmlBindings.Binding

/-- The fields that several elements have, in the order of first occurrence. -/
structure AreShared (elements : List NamedElement) (fields : List String) : Prop where
  mem_iff : ∀ field, field ∈ fields ↔ 2 ≤ (elements.map (·.fieldName)).count field
  ordered : InFirstOrder (elements.map (·.fieldName)) fields

/-- One warning for every field that several elements have, with the declared names of all of them. -/
theorem exists_areShared (elements : List NamedElement) :
    ∃ fields, AreShared elements fields ∧
      sharedFieldWarnings elements =
        fields.map fun field => .sharedField field (declaredNamesOf field elements) := by
  let fields := (groupByField elements).order
  let isShared (field : String) : Bool := decide (1 < (declaredNamesOf field elements).length)
  refine ⟨fields.filter isShared, ⟨fun field => ?_, (inFirstOrder_groupByField elements).filter _⟩, ?_⟩
  · rw [List.mem_filter, mem_order_groupByField, decide_eq_true_eq, length_declaredNamesOf]
    refine and_iff_right_of_imp fun hseveral => ?_
    exact List.count_pos_iff.1 (Nat.lt_of_lt_of_le Nat.zero_lt_two hseveral)
  · rw [← List.filterMap_eq_map, List.filterMap_filter, sharedFieldWarnings_eq]
    refine List.filterMap_congr fun field _ => ?_
    simp only [groupWarning?, isShared, decide_eq_true_eq, Function.comp_apply]

/-- The kept elements of a selection are those whose tag has a type, each bound to it. -/
theorem ofNamed_elements (table : ElementTypes) (elements : List NamedElement) :
    (Selection.ofNamed elements table).elements.map
        (fun bound => (bound.named, some bound.binding)) =
      (elements.filter fun element => (table.typed? element.tag).isSome).map
        fun element => (element, table.typed? element.tag) := by
  rw [Selection.ofNamed, List.map_filterMap, ← List.filterMap_eq_map, List.filterMap_filter]
  refine List.filterMap_congr fun element _ => ?_
  cases htyped : table.typed? element.tag <;> simp [BoundElement.ofNamed?, htyped]

/-- The elements whose tag has no type are warned of. -/
theorem filterMap_untypedWarning? (table : ElementTypes) (elements : List NamedElement) :
    elements.filterMap (untypedWarning? table) =
      (elements.filter fun element => (table.typed? element.tag).isNone).map
        fun element => .untypedTag element.tag element.declaredName := by
  rw [← List.filterMap_eq_map, List.filterMap_filter]
  refine List.filterMap_congr fun element _ => ?_
  cases htyped : table.typed? element.tag <;> simp [untypedWarning?, htyped]

/-- A selection keeps exactly the elements whose tag has a type, in order and each with the type of
its tag. Its warnings are one for every other element, in order, and then those about the shared
fields of the kept ones. For any elements, these are one warning for each field that several of them
have, in the order of first occurrence, and it lists the declared names of all of them. -/
theorem ofNamed_typed_and_warned (table : ElementTypes) (elements : List NamedElement) :
    (Selection.ofNamed elements table).elements.map
        (fun bound => (bound.named, some bound.binding)) =
      (elements.filter fun element => (table.typed? element.tag).isSome).map
        (fun element => (element, table.typed? element.tag)) ∧
      (Selection.ofNamed elements table).warnings =
        (elements.filter fun element => (table.typed? element.tag).isNone).map
          (fun element => .untypedTag element.tag element.declaredName) ++
          sharedFieldWarnings
            (elements.filter fun element => (table.typed? element.tag).isSome) ∧
      ∀ listed : List NamedElement, ∃ fields, AreShared listed fields ∧
        sharedFieldWarnings listed =
          fields.map fun field => .sharedField field (declaredNamesOf field listed) := by
  have helements := ofNamed_elements table elements
  refine ⟨helements, ?_, exists_areShared⟩
  have hnamed : (Selection.ofNamed elements table).elements.map (·.named) =
      elements.filter fun element => (table.typed? element.tag).isSome := by
    simpa [Function.comp_def] using congrArg (List.map Prod.fst) helements
  rw [← hnamed, ← filterMap_untypedWarning?]
  rfl

example :
    sharedFieldWarnings
        [.ofName "Label" "Title", .ofName "Button" "play", .ofName "Label" "title",
          .ofName "Toggle" "Play", .ofName "Label" "Title"] =
      [.sharedField "_title" ["Title", "title", "Title"], .sharedField "_play" ["play", "Play"]] := by
  decide +kernel

end UxmlBindings.Binding
