import UxmlBindings.Proofs.Workspace.Effects
import UxmlBindings.Proofs.Workspace.Registered

/-!
# Bindings that are removed and forgotten

The bindings that are recorded for a file are removed with the file that describes them, and only then
is the record dropped. With settings in memory, a removal that succeeds has left neither of the two
files, nothing to be removed again, and everything else as it was. A removal that fails has kept the
record, so that the next one comes back to the same path.
-/

namespace UxmlBindings.Workspace

open Binding Files FileTree Settings

/-- Where the bindings of a file were last written, by its setting. -/
def recorded? (workspace : Workspace) (path : String) : Option Pathname :=
  match workspace.settings.find? (keyOf path) with
  | none => none
  | some setting => setting.lastBindings.map workspace.locate

/-- A removal of recorded bindings has succeeded. -/
structure Removed (path : String) (result : Option Pathname) (before after : Workspace) : Prop where
  /-- Neither the bindings nor the file that describes them is left. -/
  gone : ∀ target, before.recorded? path = some target →
    ¬ HoldsFile after.tree target ∧ ¬ HoldsFile after.tree (target.extend metaEnding)
  /-- All other files are as before. -/
  files : ∀ location, after.tree.content? location = before.tree.content? location ∨
    ∃ target, before.recorded? path = some target ∧
      (before.tree.locationOf target = .ok location ∨
        before.tree.locationOf (target.extend metaEnding) = .ok location)
  /-- The record is dropped, and all other settings are as before. -/
  settings : after.settings = before.settings.change (keyOf path) forgetBindings
  forgotten : after.recorded? path = none
  root : after.root = before.root
  types : after.sessionTypes = before.sessionTypes
  /-- The path is reported exactly if there was a file. -/
  result : ∀ target, result = some target ↔
    before.recorded? path = some target ∧ HoldsFile before.tree target
  /-- There is nothing to be removed again. -/
  again : (removeBindings path).execute after = (.ok none, after)

/-- A removal of recorded bindings has failed. -/
structure Kept (path : String) (target : Pathname) (before after : Workspace) : Prop where
  recorded : before.recorded? path = some target
  /-- No file but the one that describes the bindings was removed. -/
  files : ∀ location, after.tree.content? location = before.tree.content? location ∨
    before.tree.locationOf (target.extend metaEnding) = .ok location ∧
      after.tree.content? location = none
  store : after.store = before.store
  root : after.root = before.root
  types : after.sessionTypes = before.sessionTypes
  /-- The next removal is for the same path. -/
  again : (removeBindings path).execute after = (removeRecorded (keyOf path) target).execute after

section Trees

variable {tree : FileTree} {path : Pathname} {location : Location}

/-- Paths lead to the same with a file and its description removed. -/
theorem locationOf_withoutDescribed (tree : FileTree) (path other : Pathname) :
    (withoutDescribed tree path).locationOf other = .ok location ↔
      tree.locationOf other = .ok location := by
  rw [withoutDescribed_eq_match]
  cases removal tree (path.extend metaEnding) with
  | error fault => exact Iff.rfl
  | ok described => rw [locationOf_withoutFile, locationOf_withoutFile]

/-- Where a file and its description were removed without an obstacle, neither of them is left. -/
theorem not_holdsFile_withoutDescribed {there : Bool}
    (hremoval : removalDescribed tree path = .ok there) :
    ¬ HoldsFile (withoutDescribed tree path) path ∧
      ¬ HoldsFile (withoutDescribed tree path) (path.extend metaEnding) := by
  have hnone (other : Pathname) (hother : other = path ∨ other = path.extend metaEnding) :
      ¬ HoldsFile (withoutDescribed tree path) other := by
    intro hholds
    obtain ⟨location, hpath, hcontent⟩ := holdsFile_iff.1 hholds
    rw [locationOf_withoutDescribed] at hpath
    have hgone : tree.locationOf path = .ok location ∨
        tree.locationOf (path.extend metaEnding) = .ok location :=
      hother.imp (fun (h : other = path) => h ▸ hpath)
        fun (h : other = path.extend metaEnding) => h ▸ hpath
    rw [content?_withoutDescribed hremoval, if_pos hgone] at hcontent
    cases hcontent
  exact ⟨hnone _ (.inl rfl), hnone _ (.inr rfl)⟩

/-- Where a file and its description were removed without an obstacle, the file was there or not. -/
theorem removalDescribed_eq_ok {there : Bool} (hremoval : removalDescribed tree path = .ok there) :
    there = true ↔ HoldsFile tree path := by
  rw [removalDescribed] at hremoval
  cases hdescription : removal tree (path.extend metaEnding) with
  | error fault =>
    rw [hdescription] at hremoval
    cases hremoval
  | ok described =>
    rw [hdescription] at hremoval
    rw [removal_eq_ok hremoval, holdsFile_iff, holdsFile_iff]
    simp only [locationOf_withoutFile, content?_withoutFile]
    refine exists_congr fun location => and_congr_right fun hpath => ?_
    -- The description does not stand in the place of the file.
    rw [if_neg]
    intro hmeta
    refine placeOf_extend_ne tree.home path metaEnding (by decide) (by decide) ?_
    rw [← eq_placeOf hpath, ← eq_placeOf hmeta]

/-- Where a removal had an obstacle, at most the description was removed. -/
theorem content?_withoutDescribed_of_error {fault : Pathname × Fault}
    (hremoval : removalDescribed tree path = .error fault) (location : Location) :
    (withoutDescribed tree path).content? location = tree.content? location ∨
      tree.locationOf (path.extend metaEnding) = .ok location ∧
        (withoutDescribed tree path).content? location = none := by
  rw [removalDescribed] at hremoval
  rw [withoutDescribed_eq_match]
  cases hdescription : removal tree (path.extend metaEnding) with
  | error obstacle => exact .inl rfl
  | ok described =>
    rw [hdescription] at hremoval
    dsimp only at hremoval ⊢
    rw [withoutFile_of_error hremoval, content?_withoutFile]
    by_cases hmeta : tree.locationOf (path.extend metaEnding) = .ok location
    · exact .inr ⟨hmeta, if_pos hmeta⟩
    · exact .inl (if_neg hmeta)

end Trees

section Removals

variable {workspace later : Workspace} {path : String} {setting : AssetOptions} {last target : Pathname}

theorem recorded?_of_find? (hfind : workspace.settings.find? (keyOf path) = some setting) :
    workspace.recorded? path = setting.lastBindings.map workspace.locate := by
  rw [recorded?, hfind]

/-- What was forgotten is not recorded. -/
theorem recorded?_of_change
    (hsettings : later.settings = workspace.settings.change (keyOf path) forgetBindings) :
    later.recorded? path = none := by
  have hkeeps (setting : AssetOptions) (hpath : setting.path = keyOf path) :
      (forgetBindings setting).path = keyOf path :=
    hpath
  rw [recorded?, hsettings, find?_change _ _ hkeeps, if_pos rfl]
  cases workspace.settings.find? (keyOf path) <;> rfl

/-- Where nothing is recorded for a file, nothing is removed. -/
theorem execute_removeBindings_of_unrecorded (hmem : keyOf path ∈ workspace.settings.keys)
    (hnone : workspace.recorded? path = none) :
    (removeBindings path).execute workspace = (.ok none, workspace) := by
  obtain ⟨setting, hfind⟩ := Option.isSome_iff_exists.1 (isSome_find?_iff.2 hmem)
  obtain ⟨notices, hrun⟩ := execute_removeBindings workspace path
  rw [recorded?_of_find? hfind, Option.map_eq_none_iff] at hnone
  rw [hrun, hfind]
  dsimp only
  rw [hnone]

/-- What is recorded for a file is removed. -/
theorem execute_removeBindings_of_recorded (hrecorded : workspace.recorded? path = some target) :
    (removeBindings path).execute workspace =
      (removeRecorded (keyOf path) target).execute workspace := by
  obtain ⟨notices, hrun⟩ := execute_removeBindings workspace path
  unfold recorded? at hrecorded
  split at hrecorded
  · cases hrecorded
  · rename_i setting hfind
    obtain ⟨last, hlast, rfl⟩ := Option.map_eq_some_iff.1 hrecorded
    rw [hrun, hfind]
    dsimp only
    rw [hlast]

/-- Where nothing is recorded, the removal succeeds and changes nothing. -/
theorem removed_of_unrecorded (hmem : keyOf path ∈ workspace.settings.keys)
    (hnone : workspace.recorded? path = none) : Removed path none workspace workspace where
  gone target htarget := by
    rw [hnone] at htarget
    cases htarget
  files location := .inl rfl
  settings := by
    refine (change_eq_self fun setting hfind => ?_).symm
    rw [recorded?_of_find? hfind, Option.map_eq_none_iff] at hnone
    rw [forgetBindings, ← hnone]
  forgotten := hnone
  root := rfl
  types := rfl
  result target := by
    rw [hnone]
    simp
  again := execute_removeBindings_of_unrecorded hmem hnone

/-- What is left once recorded bindings were removed without an obstacle and forgotten. -/
theorem removed_of_removal {there : Bool} (hmem : keyOf path ∈ workspace.settings.keys)
    (hrecorded : workspace.recorded? path = some target)
    (hremoval : removalDescribed workspace.tree target = .ok there)
    (htree : later.tree = withoutDescribed workspace.tree target)
    (hsettings : later.settings = workspace.settings.change (keyOf path) forgetBindings)
    (hroot : later.root = workspace.root) (htypes : later.sessionTypes = workspace.sessionTypes) :
    Removed path (if there then some target else none) workspace later where
  gone other hother := by
    obtain rfl := Option.some.inj (hrecorded.symm.trans hother)
    rw [htree]
    exact not_holdsFile_withoutDescribed hremoval
  files location := by
    rw [htree, content?_withoutDescribed hremoval]
    by_cases hgone : workspace.tree.locationOf target = .ok location ∨
        workspace.tree.locationOf (target.extend metaEnding) = .ok location
    · exact .inr ⟨target, hrecorded, hgone⟩
    · exact .inl (if_neg hgone)
  settings := hsettings
  forgotten := recorded?_of_change hsettings
  root := hroot
  types := htypes
  result other := by
    rw [hrecorded, Option.some.injEq]
    have hthere := removalDescribed_eq_ok hremoval
    cases there with
    | true =>
      rw [if_pos rfl, Option.some.injEq]
      exact ⟨fun hsame => ⟨hsame, hsame ▸ hthere.1 rfl⟩, And.left⟩
    | false =>
      refine iff_of_false (by simp) ?_
      rintro ⟨rfl, hholds⟩
      cases hthere.2 hholds
  again := by
    refine execute_removeBindings_of_unrecorded ?_ (recorded?_of_change hsettings)
    rw [hsettings]
    exact mem_keys_change (fun _ _ hpath => hpath) hmem

/-- A removal of what is recorded succeeds if nothing is in its way, and otherwise keeps the record. -/
theorem removeBindings_of_recorded (hmemory : workspace.InMemory)
    (hmem : keyOf path ∈ workspace.settings.keys) (hkey : keyOf (keyOf path) = keyOf path)
    (hrecorded : workspace.recorded? path = some target) :
    (∃ result later, (removeBindings path).execute workspace = (.ok result, later) ∧
        Removed path result workspace later) ∨
      ∃ failure later, (removeBindings path).execute workspace = (.error failure, later) ∧
        Kept path target workspace later := by
  obtain ⟨notices, hrun⟩ := execute_removeRecorded workspace (keyOf path) target
  rw [execute_removeBindings_of_recorded hrecorded, hrun]
  let cleared := workspace.withTree (withoutDescribed workspace.tree target)
  cases hremoval : removalDescribed workspace.tree target with
  | error obstacle =>
    exact .inr ⟨_, cleared, rfl, {
      recorded := hrecorded
      files := content?_withoutDescribed_of_error hremoval
      store := rfl
      root := rfl
      types := rfl
      again := execute_removeBindings_of_recorded hrecorded }⟩
  | ok there =>
    have hcleared : cleared.InMemory := hmemory
    have hfind : (cleared.settings.find? (keyOf (keyOf path))).isSome := by
      rw [hkey]
      exact isSome_find?_iff.2 hmem
    obtain ⟨saves, hchange⟩ := execute_change_of_isSome hcleared (keyOf path) forgetBindings hfind
    rw [hkey] at hchange
    dsimp only [cleared] at hchange ⊢
    rw [hchange]
    exact .inl ⟨_, _, rfl, removed_of_removal hmem hrecorded hremoval rfl rfl rfl rfl⟩

/-- With settings in memory, removing the bindings of a file whose key is its own key either leaves
neither them nor the file that describes them, drops the record and nothing else, and reports the path
exactly if there was a file; or it fails, keeps the record, and has removed the description at most. -/
theorem removeBindings_outcome (hmemory : workspace.InMemory)
    (hmem : keyOf path ∈ workspace.settings.keys) (hkey : keyOf (keyOf path) = keyOf path) :
    (∃ result later, (removeBindings path).execute workspace = (.ok result, later) ∧
        Removed path result workspace later) ∨
      ∃ failure later target, (removeBindings path).execute workspace = (.error failure, later) ∧
        Kept path target workspace later := by
  cases hrecorded : workspace.recorded? path with
  | none =>
    exact .inl ⟨none, workspace, execute_removeBindings_of_unrecorded hmem hrecorded,
      removed_of_unrecorded hmem hrecorded⟩
  | some target =>
    refine (removeBindings_of_recorded hmemory hmem hkey hrecorded).imp_right ?_
    rintro ⟨failure, later, hrun, hkept⟩
    exact ⟨failure, later, target, hrun, hkept⟩

/-- A project with recorded bindings, which have no description. -/
def recordingProject : Workspace where
  tree := { entries := .ofList [
    (["Menu.uxml"], Entry.file (.text "<UXML/>")),
    (["Assets"], .directory),
    (["Assets", "Menu.g.cs"], Entry.file (.text "class Menu {}"))] }
  store := .inMemory {
    files := [{ path := "Menu.uxml", lastBindings := some ⟨"Assets/Menu.g.cs"⟩ }] }
  root := ⟨""⟩

theorem removeBindings_outcome_recording :
    recordingProject.InMemory ∧ keyOf "Menu.uxml" ∈ recordingProject.settings.keys ∧
      keyOf (keyOf "Menu.uxml") = keyOf "Menu.uxml" ∧
      ∃ later, (removeBindings "Menu.uxml").execute recordingProject =
          (.ok (some ⟨"Assets/Menu.g.cs"⟩), later) ∧
        Removed "Menu.uxml" (some ⟨"Assets/Menu.g.cs"⟩) recordingProject later := by
  have hmemory : recordingProject.InMemory := ⟨0, rfl⟩
  have hmem : keyOf "Menu.uxml" ∈ recordingProject.settings.keys := by decide
  have hkey : keyOf (keyOf "Menu.uxml") = keyOf "Menu.uxml" := by decide
  have houtcome : ((removeBindings "Menu.uxml").execute recordingProject).1 =
      .ok (some ⟨"Assets/Menu.g.cs"⟩) := by
    decide +kernel
  refine ⟨hmemory, hmem, hkey, ?_⟩
  rcases removeBindings_outcome hmemory hmem hkey with
    ⟨result, later, hrun, hremoved⟩ | ⟨failure, later, target, hrun, -⟩
  · rw [hrun, Except.ok.injEq] at houtcome
    subst houtcome
    exact ⟨later, hrun, hremoved⟩
  · rw [hrun] at houtcome
    cases houtcome

end Removals

end UxmlBindings.Workspace
