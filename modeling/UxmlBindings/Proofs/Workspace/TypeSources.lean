import Mathlib.Data.Finset.Card
import Mathlib.Data.Finset.Dedup
import UxmlBindings.Proofs.Markup.Description
import UxmlBindings.Proofs.Settings.Reading
import UxmlBindings.Workspace.State

/-!
# Where types of elements come from

The type of an element is looked up in three places: among the types of the session, of which the
last one for a tag counts, then among those of the project, then in the built-in table. The table of
a workspace is made by insertions into a copy of the built-in table, and `elementTypes_withTypes`
says that it amounts to these three look-ups. The built-in table itself is the same whatever the
workspace holds.
-/

namespace UxmlBindings

open Binding Files

namespace Binding.ElementTypes

/-- The tags of a table, in order. -/
def tags (table : ElementTypes) : List String :=
  table.toList.map (·.1)

/-- Entries for a tag are found, in whatever order they are searched. -/
theorem isSome_lookup_reverse_iff {entries : List (String × String)} {tag : String} :
    (entries.reverse.lookup tag).isSome = true ↔ tag ∈ entries.map (·.1) := by
  rw [List.lookup_isSome_iff, List.mem_map]
  constructor
  · rintro ⟨entry, hmem, hsame⟩
    exact ⟨entry, List.mem_reverse.1 hmem, (beq_iff_eq.1 hsame).symm⟩
  · rintro ⟨entry, hmem, rfl⟩
    exact ⟨entry, List.mem_reverse.2 hmem, beq_self_eq_true entry.1⟩

/-- A table that is extended by another one is looked at after it. -/
theorem typed?_extend_toList (table types : ElementTypes) (tag : String) :
    (table.extend types.toList).typed? tag = (types.typed? tag).or (table.typed? tag) := by
  have hown := typed?_extend empty types.toList tag
  rw [Settings.extend_empty_toList, typed?_empty, Option.or_none] at hown
  rw [typed?_extend, hown]

theorem tags_eq_keys (table : ElementTypes) : table.tags = table.entries.keys := by
  rw [tags, toList, List.map_map, ← Std.ExtTreeMap.map_fst_toList_eq_keys]
  rfl

/-- The tags of a table are those that have a type. -/
theorem mem_tags_iff {table : ElementTypes} {tag : String} :
    tag ∈ table.tags ↔ (table.typed? tag).isSome = true := by
  rw [tags_eq_keys, Std.ExtTreeMap.mem_keys, typed?, ← Std.ExtTreeMap.mem_iff_isSome_getElem?]

/-- The size of a table is the number of its tags. -/
theorem size_eq_card_tags (table : ElementTypes) : table.size = table.tags.toFinset.card := by
  have hnodup : table.tags.Nodup := by
    rw [tags_eq_keys]
    exact Std.ExtTreeMap.nodup_keys
  rw [List.toFinset_card_of_nodup hnodup, tags_eq_keys, Std.ExtTreeMap.length_keys, size]

/-- An element of the library has the type of its own name, and the built-in table knows no other. -/
theorem typed?_standard (tag : String) :
    standard.typed? tag = if tag ∈ containers ++ controls then some ⟨tag, tag⟩ else none := by
  rw [standard, typed?_extend, typed?_empty, Option.or_none, ← List.map_reverse]
  by_cases hmem : tag ∈ containers ++ controls
  · rw [if_pos hmem, List.lookup_graph _ (List.mem_reverse.2 hmem)]
    rfl
  · have hnone : ((containers ++ controls).reverse.map fun tag => (tag, tag)).lookup tag = none := by
      refine List.lookup_eq_none_iff.2 fun entry hentry => ?_
      obtain ⟨other, hother, rfl⟩ := List.mem_map.1 hentry
      have hne : tag ≠ other := fun heq => hmem (heq ▸ List.mem_reverse.1 hother)
      simpa using hne
    rw [if_neg hmem, hnone]
    rfl

end Binding.ElementTypes

namespace Workspace

/-- Giving types changes the types of the session and nothing else. -/
theorem withTypes_eq (workspace : Workspace) (entries : List (String × String)) :
    workspace.withTypes entries =
      { workspace with sessionTypes := workspace.sessionTypes.extend entries } := by
  induction entries generalizing workspace with
  | nil => rfl
  | cons entry rest ih => exact ih (workspace.withType entry.1 entry.2)

/-- The types of a workspace are looked up in the session, in the project and in the built-in table. -/
theorem typed?_elementTypes (workspace : Workspace) (tag : String) :
    workspace.elementTypes.typed? tag =
      ((workspace.sessionTypes.typed? tag).or (workspace.project.customTypes.typed? tag)).or
        (ElementTypes.standard.typed? tag) := by
  have hparts : workspace.elementTypes =
      (ElementTypes.standard.extend workspace.project.customTypes.toList).extend
        workspace.sessionTypes.toList := by
    rw [elementTypes, ElementTypes.extend, List.foldl_append]
    rfl
  rw [hparts, ElementTypes.typed?_extend_toList, ElementTypes.typed?_extend_toList, Option.or_assoc]

/-- In a workspace for which types were given one after the other, a tag has the type that was given
last for it, without one that of the project, and without this one the built-in one. The entry that is
found bears the tag that was looked up, the table has as many entries as there are different tags in
the three sources, and the built-in table holds the elements of the library as before: it is the
table of a workspace without types of its own. -/
theorem elementTypes_withTypes (tree : FileTree) (store : Settings.Store) (root : Pathname)
    (entries : List (String × String)) :
    let workspace := Workspace.withTypes { tree, store, root } entries
    let project := store.settings.project.customTypes
    (∀ tag, workspace.elementTypes.typed? tag =
        (((entries.reverse.lookup tag).map (TypedTag.mk tag)).or (project.typed? tag)).or
          (ElementTypes.standard.typed? tag)) ∧
      (∀ tag entry, workspace.elementTypes.typed? tag = some entry → entry.tag = tag) ∧
      workspace.elementTypes.size =
        (entries.map (·.1) ++ project.tags ++ ElementTypes.standard.tags).toFinset.card ∧
      (∀ tag, ElementTypes.standard.typed? tag =
        if tag ∈ ElementTypes.containers ++ ElementTypes.controls then some ⟨tag, tag⟩ else none) ∧
      ({ tree, store := .inMemory {}, root } : Workspace).elementTypes = ElementTypes.standard := by
  intro workspace project
  have hsession : workspace.sessionTypes = ElementTypes.empty.extend entries := by
    rw [show workspace = _ from withTypes_eq _ entries]
  have hproject : workspace.project.customTypes = project := by
    rw [show workspace = _ from withTypes_eq _ entries]
    rfl
  have hfound (tag : String) : workspace.elementTypes.typed? tag =
      (((entries.reverse.lookup tag).map (TypedTag.mk tag)).or (project.typed? tag)).or
        (ElementTypes.standard.typed? tag) := by
    rw [typed?_elementTypes, hsession, hproject, ElementTypes.typed?_extend,
      ElementTypes.typed?_empty, Option.or_none]
  have hunchanged : ({ tree, store := .inMemory {}, root } : Workspace).elementTypes =
      ElementTypes.standard := by
    change ElementTypes.standard.extend (ElementTypes.empty.toList ++ ElementTypes.empty.toList) = _
    have hempty : ElementTypes.empty.toList = [] := rfl
    rw [hempty, List.append_nil, ElementTypes.extend_nil]
  refine ⟨hfound, fun tag entry => ElementTypes.tag_of_typed?, ?_, ElementTypes.typed?_standard,
    hunchanged⟩
  rw [ElementTypes.size_eq_card_tags]
  congr 1
  ext tag
  rw [List.mem_toFinset, ElementTypes.mem_tags_iff, hfound, List.mem_toFinset, List.mem_append,
    List.mem_append, ElementTypes.mem_tags_iff, ElementTypes.mem_tags_iff, Option.isSome_or,
    Option.isSome_or, Option.isSome_map, Bool.or_eq_true, Bool.or_eq_true,
    ElementTypes.isSome_lookup_reverse_iff]

end Workspace

end UxmlBindings
