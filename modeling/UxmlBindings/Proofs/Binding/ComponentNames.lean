import UxmlBindings.Binding.Shape

/-!
# The two classes of a component

The script of a component keeps an object of the bindings class and refers to this class by its bare
name. One class is named after the asset with its prefix and suffix, the other after the asset alone
with the ending `Component`. This file says for which assets both names are the same, so that the
script refers to its own class: those with the suffix `Component` and no prefix, and a few whose name
repeats its prefix.
-/

namespace UxmlBindings.Binding

open Code

/-! ## Texts that a prefix moves along -/

/-- A repeated text may start with a repetition as well as end with one. -/
theorem append_flatten_replicate {α : Type} (start : List α) (count : Nat) :
    start ++ (List.replicate count start).flatten = (List.replicate count start).flatten ++ start := by
  have hleft : start ++ (List.replicate count start).flatten =
      (List.replicate (count + 1) start).flatten := by
    rw [List.replicate_succ, List.flatten_cons]
  have hright : (List.replicate count start).flatten ++ start =
      (List.replicate (count + 1) start).flatten := by
    rw [List.replicate_succ', List.flatten_append, List.flatten_singleton]
  rw [hleft, hright]

/-- A text before which something can be put that equals it with another ending: it repeats what is
put before it, and the last time it breaks off where the ending goes on. -/
theorem append_eq_append_iff_repeats {α : Type} {start text ending : List α} (hstart : start ≠ []) :
    start ++ text = text ++ ending ↔
      ∃ kept turned count, start = kept ++ turned ∧ ending = turned ++ kept ∧
        text = (List.replicate count start).flatten ++ kept := by
  constructor
  · intro hshift
    induction hlength : text.length using Nat.strongRecOn generalizing text with
    | ind length ih =>
      rcases List.append_eq_append_iff.1 hshift with ⟨rest, htext, hending⟩ | ⟨turned, hstart', hrest⟩
      · -- the text starts with a whole repetition, and what follows is as the text itself
        have hshorter : rest.length < length := by
          rw [← hlength, htext, List.length_append]
          exact Nat.lt_add_of_pos_left (List.length_pos_iff.2 hstart)
        have hagain : start ++ rest = rest ++ ending := htext ▸ hending
        obtain ⟨kept, turned, count, hkept, hturned, hrest⟩ := ih rest.length hshorter hagain rfl
        refine ⟨kept, turned, count + 1, hkept, hturned, ?_⟩
        rw [htext, hrest, List.replicate_succ, List.flatten_cons, List.append_assoc]
      · exact ⟨text, turned, 0, hstart', hrest, rfl⟩
  · rintro ⟨kept, turned, count, hkept, rfl, rfl⟩
    calc start ++ ((List.replicate count start).flatten ++ kept)
        = (List.replicate count start).flatten ++ (start ++ kept) := by
          rw [← List.append_assoc, append_flatten_replicate, List.append_assoc]
      _ = (List.replicate count start).flatten ++ kept ++ (turned ++ kept) := by
          rw [hkept]
          simp only [List.append_assoc]

/-! ## Assets whose own class is called like the bindings -/

namespace AssetName

/-- The ending of the bindings class of a component. -/
def componentEnding : List Char :=
  "Component".toList

/-- The prefix and the suffix of an asset put the ending `Component` behind its name: the suffix is the
ending, or the name repeats the prefix, and from where it breaks off the prefix and the suffix go on
with the ending. -/
def SpellsComponent (asset : AssetName) : Prop :=
  asset.filePrefix = "" ∧ asset.fileSuffix = "Component" ∨
    asset.filePrefix ≠ "" ∧ ∃ kept turned count,
      asset.filePrefix.toList = kept ++ turned ∧
        componentEnding = turned ++ kept ++ asset.fileSuffix.toList ∧
          asset.stem.toList = (List.replicate count asset.filePrefix.toList).flatten ++ kept

/-- The characters of the class name of an asset. -/
theorem toList_className (asset : AssetName) :
    asset.className.toList =
      asset.filePrefix.toList ++ asset.stem.toList ++ asset.fileSuffix.toList := by
  rw [className, String.toList_append, String.toList_append]

/-- The name between its prefix and suffix is the name with the ending of a component, if it spells
this ending. -/
theorem className_eq_iff_spellsComponent (asset : AssetName) :
    asset.className = asset.stem ++ "Component" ↔ asset.SpellsComponent := by
  have hbindings : (asset.stem ++ "Component").toList = asset.stem.toList ++ componentEnding :=
    String.toList_append
  have hletters : asset.className = asset.stem ++ "Component" ↔
      asset.filePrefix.toList ++ asset.stem.toList ++ asset.fileSuffix.toList =
        asset.stem.toList ++ componentEnding := by
    rw [← String.toList_inj, toList_className, hbindings]
  rw [hletters]
  by_cases hfront : asset.filePrefix = ""
  · -- without a prefix both names start with the asset's own name
    have hending : asset.fileSuffix.toList = componentEnding ↔ asset.fileSuffix = "Component" :=
      String.toList_inj
    simp [SpellsComponent, hfront, hending]
  · have hnonempty : asset.filePrefix.toList ≠ [] :=
      fun hempty => hfront (String.toList_eq_nil_iff.1 hempty)
    constructor
    · intro hsame
      rcases List.append_eq_append_iff.1 hsame with ⟨rest, hstem, -⟩ | ⟨ending, hshift, hending⟩
      · -- a name cannot hold itself after a prefix
        have hlength := congrArg List.length hstem
        have hpositive := List.length_pos_iff.2 hnonempty
        simp only [List.length_append] at hlength
        omega
      · obtain ⟨kept, turned, count, hkept, hturned, hstem⟩ :=
          (append_eq_append_iff_repeats hnonempty).1 hshift
        exact .inr ⟨hfront, kept, turned, count, hkept, hturned ▸ hending, hstem⟩
    · rintro (⟨hno, -⟩ | ⟨-, kept, turned, count, hkept, hending, hstem⟩)
      · exact absurd hno hfront
      · have hshift : asset.filePrefix.toList ++ asset.stem.toList =
            asset.stem.toList ++ (turned ++ kept) :=
          (append_eq_append_iff_repeats hnonempty).2 ⟨kept, turned, count, hkept, rfl, hstem⟩
        rw [hshift, hending, List.append_assoc]

/-- The class `CComponent` is both `C` between a prefix `C` and a suffix, and `C` with the ending. -/
example : SpellsComponent { stem := "C", filePrefix := "C", fileSuffix := "omponent" } :=
  .inr ⟨by decide, [], ['C'], 1, by decide, by decide, by decide⟩

end AssetName

/-! ## The script of a component -/

/-- A class keeps an object of a type in a field: it declares the field with this type, and one of its
methods assigns a new object of the type to it. -/
structure KeepsObject (declared : GeneratedClass) (fieldName typeName : String) : Prop where
  field : Member.field { typeName, name := fieldName } ∈ declared.members
  construction : ∃ method arguments, Member.method method ∈ declared.members ∧
    Statement.assign (.ident fieldName) (.construct typeName arguments) ∈ method.body

/-- The script of a component keeps an object of the class that the bindings are named with. -/
theorem keepsObject_scriptDeclaration (asset : AssetName) :
    KeepsObject (Shape.component.scriptDeclaration asset) Shape.bindingsFieldName
      (Shape.component.bindingsClass asset) where
  field := .tail _ (.head _)
  construction := ⟨_, _, .tail _ (.tail _ (.head _)), .head _⟩

/-- The script of a component keeps its bindings under the bare name of the bindings class, and this
name differs from that of the script's own class except for the assets that spell the ending
`Component` with their prefix and suffix. -/
theorem scriptClass_ne_bindingsClass_iff (asset : AssetName) :
    (Shape.component.scriptDeclaration asset).name = Shape.component.scriptClass asset ∧
      KeepsObject (Shape.component.scriptDeclaration asset) Shape.bindingsFieldName
        (Shape.component.bindingsClass asset) ∧
      (Shape.component.scriptClass asset ≠ Shape.component.bindingsClass asset ↔
        ¬ asset.SpellsComponent) :=
  ⟨rfl, keepsObject_scriptDeclaration asset, not_congr asset.className_eq_iff_spellsComponent⟩

/-- A menu whose class is configured to end in `Component`. -/
def suffixedMenu : AssetName where
  stem := "Menu"
  fileSuffix := "Component"

/-- An asset can pass the check and have a script whose class is called like the bindings. -/
theorem not_scriptClass_ne_bindingsClass_suffixedMenu :
    ¬ ∀ asset : AssetName, asset.check = .ok () →
      Shape.component.scriptClass asset ≠ Shape.component.bindingsClass asset := by
  intro hdiffer
  have haccepted : suffixedMenu.check = .ok () := suffixedMenu.check_eq_ok_iff.2 (by decide +kernel)
  exact hdiffer suffixedMenu haccepted (by decide +kernel)

end UxmlBindings.Binding
