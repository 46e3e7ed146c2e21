import UxmlBindings.Proofs.Files.Places
import UxmlBindings.Proofs.Workspace.Names

/-!
# What clean-up and saving change

The clean-up after a run removes at most the file of the earlier run and the file that describes it.
Saving writes the settings file and no other, or nothing if the settings are in memory. Whatever
else an action does, the home, the project directory and the settings file stay the same.
-/

namespace UxmlBindings.Workspace

open Binding Files FileTree Settings

section Trees

variable {tree cleaned : FileTree} {path : Pathname} {location : Location}

/-- A removal takes away what stands where the path leads, and nothing else. -/
theorem content?_withoutFile (tree : FileTree) (path : Pathname) (location : Location) :
    (withoutFile tree path).content? location =
      if tree.locationOf path = .ok location then none else tree.content? location := by
  unfold withoutFile
  split
  · rename_i later hremove
    have hremoves := removes_of_removeFile hremove
    rw [hremoves.content, hremoves.reached]
    simp only [Except.ok.injEq]
  · rename_i fault hremove
    split
    · rename_i hpath
      cases hcontent : tree.content? location with
      | none => rfl
      | some content =>
        obtain ⟨later, hlater⟩ := removeFile_of_content? hpath (by rw [hcontent]; rfl)
        rw [hlater] at hremove
        cases hremove
    · rfl

theorem grows_withoutFile (tree : FileTree) (path : Pathname) :
    Grows tree (withoutFile tree path) := by
  unfold withoutFile
  split
  · rename_i later hremove
    exact (removes_of_removeFile hremove).toGrows
  · exact .refl tree

/-- Paths lead to the same with a file removed. -/
theorem locationOf_withoutFile (tree : FileTree) (path other : Pathname) :
    (withoutFile tree path).locationOf other = .ok location ↔
      tree.locationOf other = .ok location := by
  refine ⟨fun hother => ?_, (grows_withoutFile tree path).locationOf⟩
  unfold withoutFile at hother
  split at hother
  · rename_i later hremove
    exact (grows_of_removeFile hremove).locationOf hother
  · exact hother

/-- A file stands where a path leads. -/
def HoldsFile (tree : FileTree) (path : Pathname) : Prop :=
  ∃ content, tree.find? path = some (.file content)

theorem holdsFile_iff :
    HoldsFile tree path ↔
      ∃ location, tree.locationOf path = .ok location ∧ (tree.content? location).isSome := by
  unfold HoldsFile FileTree.find?
  cases tree.locationOf path with
  | error fault => simp
  | ok location => simp [Option.isSome_iff_exists, content?_eq_some_iff]

/-- Where a removal has no obstacle, it removes the file if there is one. -/
theorem removal_eq_ok {there : Bool} (hremoval : removal tree path = .ok there) :
    there = true ↔ HoldsFile tree path := by
  unfold removal at hremoval
  split at hremoval
  · rename_i later hremove
    obtain rfl := Except.ok.inj hremoval
    have hremoves := removes_of_removeFile hremove
    exact iff_of_true rfl (holdsFile_iff.2 ⟨_, hremoves.reached, hremoves.present⟩)
  · rename_i hremove
    obtain rfl := Except.ok.inj hremoval
    refine iff_of_false Bool.false_ne_true fun hholds => ?_
    obtain ⟨location, hpath, hcontent⟩ := holdsFile_iff.1 hholds
    obtain ⟨later, hlater⟩ := removeFile_of_content? hpath hcontent
    rw [hlater] at hremove
    cases hremove
  · cases hremoval

/-- Where a removal has an obstacle, it changes nothing. -/
theorem withoutFile_of_error {fault : Pathname × Fault} (hremoval : removal tree path = .error fault) :
    withoutFile tree path = tree := by
  unfold removal at hremoval
  split at hremoval
  · cases hremoval
  · cases hremoval
  · rename_i hremove
    rw [withoutFile, hremove]

/-- The description of a file is removed first, and the file itself after it unless the description is
an obstacle. -/
theorem withoutDescribed_eq_match (tree : FileTree) (path : Pathname) :
    withoutDescribed tree path =
      match removal tree (path.extend metaEnding) with
      | .error _ => tree
      | .ok _ => withoutFile (withoutFile tree (path.extend metaEnding)) path := by
  rw [withoutDescribed, withoutDescription?, removal]
  cases hremove : tree.removeFile (path.extend metaEnding) with
  | ok later => rw [withoutFile.eq_def tree, hremove]
  | error fault => cases fault <;> simp only [withoutFile.eq_def tree, hremove]

/-- Where a file and its description were removed without an obstacle, nothing is left where their paths
lead, and all else is as before. -/
theorem content?_withoutDescribed {there : Bool} (hremoval : removalDescribed tree path = .ok there)
    (location : Location) :
    (withoutDescribed tree path).content? location =
      if tree.locationOf path = .ok location ∨
          tree.locationOf (path.extend metaEnding) = .ok location then none
      else tree.content? location := by
  rw [removalDescribed] at hremoval
  rw [withoutDescribed_eq_match]
  cases hdescription : removal tree (path.extend metaEnding) with
  | error fault =>
    rw [hdescription] at hremoval
    cases hremoval
  | ok described =>
    dsimp only
    simp only [content?_withoutFile, locationOf_withoutFile]
    by_cases hpath : tree.locationOf path = .ok location
    · rw [if_pos hpath, if_pos (.inl hpath)]
    · simp only [hpath, false_or, if_false]

/-- Removing a description leaves what is not named like one. -/
theorem content?_withoutDescription (hcleaned : withoutDescription? tree path = some cleaned)
    (hname : namedMeta location = false) :
    Grows tree cleaned ∧ cleaned.content? location = tree.content? location := by
  unfold withoutDescription? at hcleaned
  split at hcleaned
  · rename_i later hremove
    obtain rfl := Option.some.inj hcleaned
    have hremoves := removes_of_removeFile hremove
    refine ⟨hremoves.toGrows, ?_⟩
    rw [hremoves.content, if_neg]
    rintro rfl
    have hsuffix : metaEnding.toList <:+ (path.extend metaEnding).text.toList := by
      rw [Pathname.extend, String.toList_append]
      exact List.suffix_append _ _
    obtain ⟨name, hlast, hending⟩ :=
      getLast?_placeOf_of_suffix tree.home (by decide) (by decide) hsuffix
    rw [namedMeta, hlast, Option.any_some, endsIn, List.isSuffixOf_iff_suffix.2 hending] at hname
    cases hname
  · obtain rfl := Option.some.inj hcleaned
    exact ⟨.refl tree, rfl⟩
  · cases hcleaned

theorem grows_withoutDescribed (tree : FileTree) (path : Pathname) :
    Grows tree (withoutDescribed tree path) := by
  unfold withoutDescribed
  split
  · exact .refl tree
  · rename_i cleaned hcleaned
    have hname : namedMeta [] = false := rfl
    exact (content?_withoutDescription hcleaned hname).1.trans (grows_withoutFile cleaned path)

theorem grows_withoutStale (workspace : Workspace) (previous : Option Pathname)
    (current : Pathname) : Grows workspace.tree (withoutStale workspace previous current) := by
  unfold withoutStale
  split
  · exact .refl _
  · split
    · exact .refl _
    · exact grows_withoutDescribed _ _

end Trees

/-- Clean-up removes what stands at a location: an earlier path that differs from the current one
leads there, and the description of the file there is no obstacle. -/
def Cleans (workspace : Workspace) (previous : Option Pathname) (current : Pathname)
    (location : Location) : Prop :=
  ∃ last cleaned, previous = some last ∧ last.same current = false ∧
    withoutDescription? workspace.tree (workspace.locate last) = some cleaned ∧
    cleaned.locationOf (workspace.locate last) = .ok location

section Cleaning

variable {workspace : Workspace} {previous : Option Pathname} {current : Pathname}
  {location : Location}

/-- Nothing is left of what clean-up removes. -/
theorem content?_withoutStale_of_cleans (hcleans : Cleans workspace previous current location) :
    (withoutStale workspace previous current).content? location = none := by
  obtain ⟨last, cleaned, rfl, hother, hcleaned, hpath⟩ := hcleans
  rw [withoutStale, if_neg (by simp [hother]), withoutDescribed, hcleaned]
  dsimp only
  rw [content?_withoutFile, if_pos hpath]

/-- What clean-up does not remove is as before, apart from descriptions. -/
theorem content?_withoutStale_of_not (hcleans : ¬ Cleans workspace previous current location)
    (hname : namedMeta location = false) :
    (withoutStale workspace previous current).content? location =
      workspace.tree.content? location := by
  unfold withoutStale
  split
  · rfl
  rename_i last
  split
  · rfl
  rename_i hother
  unfold withoutDescribed
  split
  · rfl
  rename_i cleaned hcleaned
  rw [content?_withoutFile, if_neg, (content?_withoutDescription hcleaned hname).2]
  exact fun hpath => hcleans ⟨last, cleaned, rfl, by simpa using hother, hcleaned, hpath⟩

end Cleaning
/-- The file in which the settings are kept, if they are kept in one. -/
def settingsPath? (workspace : Workspace) : Option Pathname :=
  match workspace.store.backing with
  | .memory _ => none
  | .file path => some path

/-- The place of the settings file, if there is one. -/
def settingsPlace? (workspace : Workspace) : Option Location :=
  workspace.settingsPath?.map (placeOf workspace.tree.home)

/-- The home, the project directory and the settings file stay the same, and no directory is lost.
-/
structure Continues (before after : Workspace) : Prop where
  grows : Grows before.tree after.tree
  root : after.root = before.root
  settingsPath : after.settingsPath? = before.settingsPath?

/-- Saving writes no file but that of the settings. If it does not fail, the settings are in it. -/
structure Saves (failed : Prop) (before after : Workspace) : Prop extends Continues before after where
  others : ∀ location, before.settingsPlace? ≠ some location →
    after.tree.content? location = before.tree.content? location
  own : ∀ location, before.settingsPlace? = some location →
    (failed ∧ after.tree.content? location = before.tree.content? location) ∨
      ∃ settings : Settings, after.tree.content? location = some (.text settings.toText)

section Saving

variable {workspace before middle after : Workspace}

theorem Continues.refl (workspace : Workspace) : Continues workspace workspace :=
  ⟨.refl _, rfl, rfl⟩

theorem Continues.trans (hfirst : Continues before middle) (hsecond : Continues middle after) :
    Continues before after :=
  ⟨hfirst.grows.trans hsecond.grows, hsecond.root.trans hfirst.root,
    hsecond.settingsPath.trans hfirst.settingsPath⟩

theorem Continues.settingsPlace (hcontinues : Continues before after) :
    after.settingsPlace? = before.settingsPlace? := by
  rw [settingsPlace?, settingsPlace?, hcontinues.settingsPath, hcontinues.grows.home]

theorem Continues.locate (hcontinues : Continues before after) (path : Pathname) :
    after.locate path = before.locate path := by
  rw [Workspace.locate, Workspace.locate, hcontinues.root]

/-- The directory of the settings file is made without changing files. -/
theorem keepsFiles_makeParent (tree : FileTree) (path : Pathname) :
    KeepsFiles tree (Store.makeParent tree path).2 := by
  unfold Store.makeParent
  split
  · exact .refl tree
  · split
    · exact .refl tree
    · exact keepsFiles_makeDirectories tree _

/-- A store in a file writes its settings there, or changes no file and fails. -/
theorem save_of_file {store : Store} {path : Pathname} (hbacking : store.backing = .file path)
    (tree : FileTree) :
    (∃ later, store.save tree = (.ok (), store, later) ∧
      Writes path (.text store.settings.toText) tree later) ∨
    ∃ fault later, store.save tree = (.error fault, store, later) ∧ KeepsFiles tree later := by
  rw [Store.save, hbacking]
  dsimp only
  have hparent := keepsFiles_makeParent tree path
  generalize Store.makeParent tree path = made at hparent ⊢
  obtain ⟨fault | ⟨⟩, made⟩ := made
  · exact .inr ⟨_, made, rfl, hparent⟩
  · dsimp only
    cases hwrite : made.write path (.text store.settings.toText) with
    | error fault => exact .inr ⟨_, made, rfl, hparent⟩
    | ok later => exact .inl ⟨later, rfl, hparent.writes (writes_of_write hwrite)⟩

/-- What fails and changes no file saves nothing. -/
theorem saves_of_failed {failed : Prop} {tree : FileTree} (hfailed : failed)
    (hkeeps : KeepsFiles workspace.tree tree) : Saves failed workspace (workspace.withTree tree) where
  grows := hkeeps.toGrows
  root := rfl
  settingsPath := rfl
  others location _ := hkeeps.content location
  own location _ := .inl ⟨hfailed, hkeeps.content location⟩

theorem saves_save (workspace : Workspace) :
    Saves (∃ failure, (save.execute workspace).1 = .error failure) workspace
      (save.execute workspace).2 := by
  rw [execute_save]
  cases hbacking : workspace.store.backing with
  | memory saves =>
    have hpath : workspace.settingsPath? = none := by rw [settingsPath?, hbacking]
    rw [Store.save, hbacking]
    refine ⟨⟨.refl _, rfl, hpath.symm⟩, fun _ _ => rfl, fun location hplace => ?_⟩
    rw [settingsPlace?, hpath] at hplace
    cases hplace
  | file path =>
    have hpath : workspace.settingsPath? = some path := by rw [settingsPath?, hbacking]
    have hplace : workspace.settingsPlace? = some (placeOf workspace.tree.home path) := by
      rw [settingsPlace?, hpath, Option.map_some]
    rcases save_of_file hbacking workspace.tree with
      ⟨later, hsave, hwrites⟩ | ⟨fault, later, hsave, hkeeps⟩
    · rw [hsave]
      refine ⟨⟨hwrites.toGrows, rfl, rfl⟩, fun location hother => ?_, fun location hown => ?_⟩
      · rw [hwrites.content, if_neg]
        exact fun h => hother (hplace.trans (congrArg some h))
      · obtain rfl := Option.some.inj (hplace.symm.trans hown)
        exact .inr ⟨_, (hwrites.content _).trans (if_pos rfl)⟩
    · rw [hsave]
      exact saves_of_failed ⟨_, rfl⟩ hkeeps

/-- A change of a setting saves the settings, unless there is no such setting. -/
theorem saves_change (workspace : Workspace) (path : String) (edit : AssetOptions → AssetOptions) :
    Saves (∃ failure, ((change path edit).execute workspace).1 = .error failure) workspace
      ((change path edit).execute workspace).2 := by
  rw [execute_change]
  cases workspace.settings.find? (keyOf path) with
  | none => exact saves_of_failed ⟨_, rfl⟩ (.refl workspace.tree)
  | some setting =>
    obtain ⟨⟨hgrows, hroot, hpath⟩, hothers, hown⟩ :=
      saves_save (workspace.withSettings (workspace.settings.change (keyOf path) edit))
    exact ⟨⟨hgrows, hroot, hpath⟩, hothers, hown⟩

end Saving

end UxmlBindings.Workspace
