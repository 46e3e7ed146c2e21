import Mathlib.Data.List.Basic
import Mathlib.Data.List.Induction
import UxmlBindings.Binding.Selection

/-!
# Groups of elements that share a field

Declared names are grouped by field while the elements are gone through once. A map holds the groups,
and a list the fields in the order in which they first occur. Every group lists the declared names of
all elements with its field, and no field is listed twice; so when the groups are taken out of the map
in the order of the list, each of them is still there.
-/

namespace UxmlBindings.Binding

/-- The declared names of the elements with a field name, in order and with repetitions. -/
def declaredNamesOf (fieldName : String) (elements : List NamedElement) : List String :=
  (elements.filter (·.fieldName == fieldName)).map (·.declaredName)

/-- Names in the order of their first occurrence in a list. No name comes twice among them. -/
def InFirstOrder (all names : List String) : Prop :=
  names.Pairwise fun first second => all.idxOf first < all.idxOf second

section Grouping

variable {elements : List NamedElement} {element : NamedElement} {field : String}

/-- As many declared names are listed for a field as elements have it. -/
theorem length_declaredNamesOf (field : String) (elements : List NamedElement) :
    (declaredNamesOf field elements).length = (elements.map (·.fieldName)).count field := by
  rw [declaredNamesOf, List.length_map, ← List.countP_eq_length_filter, List.count, List.countP_map]
  rfl

/-- Nothing is listed for a field that no element has. -/
theorem declaredNamesOf_eq_nil_iff :
    declaredNamesOf field elements = [] ↔ field ∉ elements.map (·.fieldName) := by
  rw [← List.length_eq_zero_iff, length_declaredNamesOf, List.count_eq_zero]

/-- One more element lengthens the list of its own field. -/
theorem declaredNamesOf_append_singleton (field : String) (elements : List NamedElement)
    (element : NamedElement) :
    declaredNamesOf field (elements ++ [element]) =
      if element.fieldName = field then declaredNamesOf field elements ++ [element.declaredName]
      else declaredNamesOf field elements := by
  by_cases hfield : element.fieldName = field <;> simp [declaredNamesOf, hfield]

/-- Grouping one more element adds it to the groups of the elements before it. -/
theorem groupByField_append_singleton (elements : List NamedElement) (element : NamedElement) :
    groupByField (elements ++ [element]) = (groupByField elements).add element := by
  rw [groupByField, List.foldl_append]
  rfl

/-- The group of a field lists the declared names of its elements. -/
theorem getD_names_groupByField (elements : List NamedElement) (field : String) :
    (groupByField elements).names.getD field [] = declaredNamesOf field elements := by
  induction elements using List.reverseRecOn with
  | nil => exact Std.ExtTreeMap.getD_empty
  | append_singleton elements element ih =>
    rw [groupByField_append_singleton, declaredNamesOf_append_singleton, FieldGroups.add,
      Std.ExtTreeMap.getD_insert, ih]
    by_cases hfield : element.fieldName = field
    · subst hfield
      rw [if_pos Std.ReflCmp.compare_self, if_pos rfl, ih]
    · rw [if_neg (mt Std.LawfulEqCmp.compare_eq_iff_eq.1 hfield), if_neg hfield]

/-- One more element changes the order of the fields only if its own is new. -/
theorem order_groupByField_append_singleton (elements : List NamedElement) (element : NamedElement) :
    (groupByField (elements ++ [element])).order =
      if element.fieldName ∈ elements.map (·.fieldName) then (groupByField elements).order
      else (groupByField elements).order ++ [element.fieldName] := by
  rw [groupByField_append_singleton, FieldGroups.add, getD_names_groupByField]
  by_cases hold : element.fieldName ∈ elements.map (·.fieldName)
  · have hsome : declaredNamesOf element.fieldName elements ≠ [] :=
      mt declaredNamesOf_eq_nil_iff.1 (not_not_intro hold)
    simp only [List.isEmpty_eq_false_iff.2 hsome, if_pos hold, Bool.false_eq_true, if_false]
  · simp only [declaredNamesOf_eq_nil_iff.2 hold, if_neg hold, List.isEmpty_nil, if_true]

/-- The fields with a group are those of the elements. -/
theorem mem_order_groupByField :
    field ∈ (groupByField elements).order ↔ field ∈ elements.map (·.fieldName) := by
  induction elements using List.reverseRecOn with
  | nil => rfl
  | append_singleton elements element ih =>
    rw [order_groupByField_append_singleton, List.map_append, List.mem_append, ← ih]
    split
    · rename_i hold
      refine ⟨.inl, fun hmem => hmem.elim id fun hlast => ?_⟩
      obtain rfl : field = element.fieldName := List.mem_singleton.1 hlast
      exact ih.2 hold
    · exact List.mem_append

/-- The fields of groups come in the order in which they first occur. -/
theorem inFirstOrder_groupByField (elements : List NamedElement) :
    InFirstOrder (elements.map (·.fieldName)) (groupByField elements).order := by
  induction elements using List.reverseRecOn with
  | nil => exact .nil
  | append_singleton elements element ih =>
    -- the fields so far have first occurred before the last element, so their places stay
    have hplace {field : String} (hmem : field ∈ (groupByField elements).order) :
        ((elements ++ [element]).map (·.fieldName)).idxOf field =
          (elements.map (·.fieldName)).idxOf field := by
      rw [List.map_append]
      exact List.idxOf_append_of_mem (mem_order_groupByField.1 hmem)
    have hkept : InFirstOrder ((elements ++ [element]).map (·.fieldName))
        (groupByField elements).order := by
      refine ih.imp_of_mem fun {first second} hfirst hsecond hlt => ?_
      rwa [hplace hfirst, hplace hsecond]
    rw [order_groupByField_append_singleton]
    split
    · exact hkept
    · rename_i hnew
      refine List.pairwise_append.2 ⟨hkept, List.pairwise_singleton _ _, ?_⟩
      intro field hmem last hlast
      rw [List.mem_singleton.1 hlast, hplace hmem, List.map_append, List.idxOf_append_of_notMem hnew]
      exact Nat.lt_add_right _ (List.idxOf_lt_length_of_mem (mem_order_groupByField.1 hmem))

theorem InFirstOrder.nodup {all names : List String} (hordered : InFirstOrder all names) :
    names.Nodup :=
  hordered.imp fun hlt hsame => absurd hlt (by rw [hsame]; exact Nat.lt_irrefl _)

/-- The warning for the group of a field, if it has more than one name. -/
def groupWarning? (field : String) (group : List String) : Option Warning :=
  if 1 < group.length then some (.sharedField field group) else none

/-- If no field comes twice, taking groups out changes none that is still to come. -/
theorem takeShared_eq (names : Std.ExtTreeMap String (List String)) {order : List String}
    (hnodup : order.Nodup) :
    takeShared names order =
      order.filterMap fun field => groupWarning? field (names.getD field []) := by
  induction order generalizing names with
  | nil => rfl
  | cons field rest ih =>
    obtain ⟨hnew, hrest⟩ := List.nodup_cons.1 hnodup
    have hlater : takeShared (names.erase field) rest =
        rest.filterMap fun other => groupWarning? other (names.getD other []) := by
      rw [ih _ hrest]
      refine List.filterMap_congr fun other hother => ?_
      have hne : field ≠ other := fun hsame => hnew (hsame ▸ hother)
      rw [Std.ExtTreeMap.getD_erase, if_neg (mt Std.LawfulEqCmp.compare_eq_iff_eq.1 hne)]
    rw [takeShared, List.filterMap_cons, Std.ExtTreeMap.getD_eq_getD_getElem?]
    cases hgroup : names[field]? with
    | none => exact ih names hrest
    | some group =>
      dsimp only [Option.getD_some, groupWarning?]
      rw [hlater]
      split <;> rfl

/-- The warnings, read off the elements: one for every field in the order, if several elements have it. -/
theorem sharedFieldWarnings_eq (elements : List NamedElement) :
    sharedFieldWarnings elements = (groupByField elements).order.filterMap fun field =>
      groupWarning? field (declaredNamesOf field elements) := by
  rw [sharedFieldWarnings, takeShared_eq _ (inFirstOrder_groupByField elements).nodup]
  simp only [getD_names_groupByField]

/-- A field that several elements have is reported, with the declared names of all of them. -/
theorem sharedField_mem_of_length (hshared : 1 < (declaredNamesOf field elements).length) :
    .sharedField field (declaredNamesOf field elements) ∈ sharedFieldWarnings elements := by
  rw [sharedFieldWarnings_eq]
  refine List.mem_filterMap.2 ⟨field, mem_order_groupByField.2 ?_, if_pos hshared⟩
  rw [length_declaredNamesOf] at hshared
  exact List.count_pos_iff.1 (Nat.zero_lt_of_lt hshared)

/-- Warnings about shared fields are of no other kind. -/
theorem eq_sharedField_of_mem {warning : Warning} (hmem : warning ∈ sharedFieldWarnings elements) :
    ∃ fieldName declaredNames, warning = .sharedField fieldName declaredNames := by
  rw [sharedFieldWarnings_eq] at hmem
  obtain ⟨field, -, hwarning⟩ := List.mem_filterMap.1 hmem
  unfold groupWarning? at hwarning
  split at hwarning
  · exact ⟨field, _, (Option.some.inj hwarning).symm⟩
  · cases hwarning

end Grouping

end UxmlBindings.Binding
