import UxmlBindings.Proofs.Files.Endings
import UxmlBindings.Proofs.Workspace.Generation

/-!
# Names of generated files

Bindings, the files that describe them, and scripts are told apart by what their names end in. The
path of bindings always ends as it should, whatever prefix and suffix the setting has. A script is
named after its class, and no class name has a dot in it, so a script is never named like bindings.
-/

namespace UxmlBindings.Workspace

open Binding Files FileTree Settings

/-- Whether what stands at a location is named like bindings. -/
def namedBindings (location : Location) : Bool :=
  location.getLast?.any fun name => endsIn name bindingsEnding

/-- Whether what stands at a location is named like the description of bindings. -/
def namedDescription (location : Location) : Bool :=
  location.getLast?.any fun name => endsIn name (bindingsEnding ++ metaEnding)

/-- The text of a path ends as bindings do. -/
def NamesBindings (path : Pathname) : Prop :=
  bindingsEnding.toList <:+ path.text.toList

/-- The place of a path whose text ends as bindings do is named like bindings. -/
theorem namedBindings_placeOf {path : Pathname} (hpath : NamesBindings path) (home : Location) :
    namedBindings (placeOf home path) = true := by
  obtain ⟨name, hname, hending⟩ :=
    getLast?_placeOf_of_suffix home (by decide) (by decide) hpath
  rw [namedBindings, hname]
  exact List.isSuffixOf_iff_suffix.2 hending

/-- What describes a file that is named like bindings is named accordingly. -/
theorem namedDescription_placeOf {path : Pathname} (hpath : NamesBindings path) (home : Location) :
    namedDescription (placeOf home (path.extend metaEnding)) = true := by
  have hending : (bindingsEnding ++ metaEnding).toList <:+ (path.extend metaEnding).text.toList := by
    obtain ⟨before, hbefore⟩ := hpath
    refine ⟨before, ?_⟩
    rw [Pathname.extend, String.toList_append, String.toList_append, ← hbefore, List.append_assoc]
  obtain ⟨name, hname, hending⟩ :=
    getLast?_placeOf_of_suffix home (by decide) (by decide) hending
  rw [namedDescription, hname]
  exact List.isSuffixOf_iff_suffix.2 hending

/-- What a walk takes for a bindings file is named like one, or like a description. -/
theorem named_of_isBindingsPath {path : Pathname} (hpath : isBindingsPath path = true)
    (home : Location) :
    namedBindings (placeOf home path) = true ∨ namedDescription (placeOf home path) = true := by
  unfold isBindingsPath at hpath
  split at hpath
  · cases hpath
  · rename_i name hname
    rw [namedBindings, namedDescription, getLast?_placeOf_of_lastName? hname]
    exact Bool.or_eq_true_iff.1 hpath

/-- Whether what stands at a location is named like a description of another file. -/
def namedMeta (location : Location) : Bool :=
  location.getLast?.any fun name => endsIn name metaEnding

/-- What is named like bindings is not named like a description. -/
theorem namedMeta_of_namedBindings {location : Location} (hnamed : namedBindings location = true) :
    namedMeta location = false := by
  unfold namedBindings at hnamed
  unfold namedMeta
  cases hlast : location.getLast? with
  | none => rfl
  | some name =>
    rw [hlast] at hnamed
    obtain ⟨first, hfirst⟩ := List.isSuffixOf_iff_suffix.1 hnamed
    rw [Option.any_some, Bool.eq_false_iff]
    intro hmeta
    obtain ⟨second, hsecond⟩ := List.isSuffixOf_iff_suffix.1 hmeta
    have hends := congrArg List.getLast? (hfirst.trans hsecond.symm)
    have hbindings : bindingsEnding.toList.getLast? = some 's' := by decide
    have hdescription : metaEnding.toList.getLast? = some 'a' := by decide
    rw [List.getLast?_append, hbindings, List.getLast?_append, hdescription] at hends
    exact absurd (Option.some.inj hends) (by decide)

section Assets

variable {workspace : Workspace} {path : String} {asset : Asset} {text : GeneratedText}

/-- The path of the bindings of an asset ends as bindings do. -/
theorem namesBindings_of_asset? (hasset : workspace.asset? path = .ok asset) :
    NamesBindings asset.bindingsPath := by
  obtain ⟨-, directory, hbindings, -⟩ := asset?_eq_ok hasset
  rw [NamesBindings, hbindings]
  apply Pathname.suffix_join
  rw [String.toList_append]
  exact List.suffix_append _ _

/-- The place of the bindings of an asset is named like bindings. -/
theorem namedBindings_place (hasset : workspace.asset? path = .ok asset) (home : Location) :
    namedBindings (placeOf home (workspace.locate asset.bindingsPath)) = true :=
  namedBindings_placeOf (Pathname.suffix_join (namesBindings_of_asset? hasset)) home

/-- An asset with a script passes the check. -/
theorem check_of_scriptText (hscript : asset.scriptText = .ok text) :
    asset.assetName.check = .ok () := by
  unfold Asset.scriptText assetScript at hscript
  split at hscript
  · cases hscript
  · assumption

/-- An asset with bindings passes the check. -/
theorem check_of_bindingsText (htext : workspace.bindingsText asset = .ok text) :
    asset.assetName.check = .ok () := by
  obtain ⟨⟨file, warnings⟩, htree, -⟩ := bind_eq_ok_iff.1 htext
  unfold bindingsTree at htree
  split at htree
  · cases htree
  · assumption

/-- An asset that passes the check has a class name without dots and slashes. -/
theorem notMem_className_of_check (hcheck : asset.assetName.check = .ok ()) {c : Char}
    (hc : Code.Identifier.isPart c = false) : c ∉ asset.assetName.className.toList := by
  obtain ⟨-, hvalid, -⟩ := (AssetName.check_eq_ok_iff _).1 hcheck
  intro hmem
  rw [Code.Identifier.isPart_of_mem hvalid hmem] at hc
  cases hc

/-- An asset with a script has a class name without dots and slashes. -/
theorem notMem_className (hscript : asset.scriptText = .ok text) {c : Char}
    (hc : Code.Identifier.isPart c = false) : c ∉ asset.assetName.className.toList :=
  notMem_className_of_check (check_of_scriptText hscript) hc

/-- The place of a script is named after the class. -/
theorem getLast?_placeOf_scriptPath (hasset : workspace.asset? path = .ok asset)
    (hscript : asset.scriptText = .ok text) (home : Location) :
    (placeOf home (workspace.locate asset.scriptPath)).getLast? =
      some (asset.assetName.className ++ scriptEnding) := by
  obtain ⟨-, directory, -, hpath⟩ := asset?_eq_ok hasset
  have habsent : '/' ∉ (asset.assetName.className ++ scriptEnding).toList := by
    rw [String.toList_append, List.mem_append]
    rintro (hname | hending)
    · exact notMem_className hscript (by decide +kernel) hname
    · exact absurd hending (by decide)
  have hpiece : (workspace.locate asset.scriptPath).pieces.getLast? =
      some (asset.assetName.className ++ scriptEnding).toList := by
    rw [locate, hpath, Pathname.getLast?_pieces_join, Pathname.getLast?_pieces_join,
      Pathname.getLast?_pieces_of_notMem habsent]
  have hlength : 3 ≤ (asset.assetName.className ++ scriptEnding).toList.length := by
    simp [scriptEnding]
  have hturn := turnOf_of_length hlength
  rw [getLast?_placeOf hpiece hturn, String.ofList_toList]

/-- The name of a script is neither like that of bindings nor like that of a description. -/
theorem not_named_scriptPath (hasset : workspace.asset? path = .ok asset)
    (hscript : asset.scriptText = .ok text) (home : Location) :
    namedBindings (placeOf home (workspace.locate asset.scriptPath)) = false ∧
      namedDescription (placeOf home (workspace.locate asset.scriptPath)) = false := by
  rw [namedBindings, namedDescription, getLast?_placeOf_scriptPath hasset hscript home]
  have hdot : '.' ∉ asset.assetName.className.toList :=
    notMem_className hscript (by decide +kernel)
  constructor
  · rw [Option.any_some, endsIn, Bool.eq_false_iff]
    intro hsuffix
    obtain ⟨before, hbefore⟩ := List.isSuffixOf_iff_suffix.1 hsuffix
    rw [String.toList_append] at hbefore
    have hname : before ++ ['.', 'g'] = asset.assetName.className.toList :=
      List.append_cancel_right ((List.append_assoc before ['.', 'g'] scriptEnding.toList).trans hbefore)
    exact hdot (hname ▸ by simp)
  · rw [Option.any_some, endsIn, Bool.eq_false_iff]
    intro hsuffix
    obtain ⟨before, hbefore⟩ := List.isSuffixOf_iff_suffix.1 hsuffix
    have hlast := congrArg List.getLast? (hbefore.trans String.toList_append)
    have hdescription : (bindingsEnding ++ metaEnding).toList.getLast? = some 'a' := by decide
    have hending : scriptEnding.toList.getLast? = some 's' := by decide
    rw [List.getLast?_append, hdescription, List.getLast?_append, hending] at hlast
    exact absurd (Option.some.inj hlast) (by decide)

end Assets

end UxmlBindings.Workspace
