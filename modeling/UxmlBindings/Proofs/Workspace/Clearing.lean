import Mathlib.Data.List.Forall2
import UxmlBindings.Proofs.Files.Repeats
import UxmlBindings.Proofs.Workspace.Searches
import UxmlBindings.Proofs.Workspace.Steps

/-!
# Bindings that are removed all at once

All output directories are searched, and then the bindings are forgotten that do not exist. These are the
ones that were removed or were gone already, and the settings are saved if there are any. A directory
whose path cannot be looked up, or that cannot be listed, is reported as a failure, and what is in it
stays.
-/

namespace UxmlBindings.Workspace

open Binding Files FileTree Settings

/-- The workspace without the bindings files below its output directories. -/
def cleared (workspace : Workspace) : Workspace :=
  workspace.withTree (withoutBindings workspace.tree (bindingsRoots workspace))

/-- In a workspace without the bindings that were removed, those that do not exist were forgotten, which
was saved once if it changed the settings. -/
structure Settled (cleared after : Workspace) : Prop where
  settings : after.settings = cleared.present
  unsaved : cleared.present = cleared.settings →
    after.store = cleared.store ∧ after.tree = cleared.tree
  saved : cleared.present ≠ cleared.settings →
    ({ cleared.store with settings := cleared.present } : Store).save cleared.tree =
      (.ok (), after.store, after.tree)
  root : after.root = cleared.root
  types : after.sessionTypes = cleared.sessionTypes

/-- The bindings that are recorded in a setting did not exist, or were removed. -/
def Gone (before : Workspace) (report : RemovalReport) (setting : AssetOptions) : Prop :=
  ∃ last, setting.lastBindings = some last ∧
    (before.tree.holds (before.locate last) = false ∨
      ∃ path ∈ report.removed,
        before.tree.locationOf (before.locate last) = .ok (placeOf before.tree.home path))

/-- All bindings of a project were removed. -/
structure Cleared (before : Workspace) (report : RemovalReport) (after : Workspace) : Prop where
  /-- Nothing failed but to go into a directory to which a walk came. -/
  failures : ∀ failure, failure ∈ report.failures ↔
    ∃ root ∈ bindingsRoots before, ∃ top names fault, LeadsTo before.tree root top ∧
      before.tree.comesTo root top names = true ∧
      before.tree.entryAt (top ++ names) = some .directory ∧
      before.tree.barrier? (pathTo root names) (top ++ names) = some fault ∧
      failure = .walk (pathTo root names) fault
  /-- What is left of bindings below an output directory is where no walk could come from this directory,
  as it is written for one of the files with this output directory. -/
  left : ∀ setting ∈ before.settings.files, ∀ directory,
    directory = before.locate (targetDirectory before.project setting false) →
    ∀ top names, LeadsTo before.tree directory top →
    (namedBindings names = true ∨ namedDescription names = true) →
    before.settingsPlace? ≠ some (top ++ names) → (after.tree.content? (top ++ names)).isSome →
    ∃ root ∈ bindingsRoots before, root.same directory = true ∧
      before.tree.comesTo root top names = false
  /-- Only bindings below output directories were removed. -/
  below : ∀ path ∈ report.removed, isBindingsPath path = true ∧
    ∃ root ∈ bindingsRoots before, ∃ top names,
      LeadsTo before.tree root top ∧ names ≠ [] ∧ path = pathTo root names
  /-- What was removed was a file, and is reported once. -/
  once : (report.removed.map (placeOf before.tree.home)).Nodup
  existed : ∀ path ∈ report.removed, (before.tree.content? (placeOf before.tree.home path)).isSome
  /-- All other files are as before. -/
  files : ∀ location, before.settingsPlace? ≠ some location →
    after.tree.content? location =
      if location ∈ report.removed.map (placeOf before.tree.home) then none
      else before.tree.content? location
  /-- Exactly the bindings that are gone are forgotten, and nothing else changes in the settings. -/
  forgotten : List.Forall₂
    (fun old new => Gone before report old ∧ new = forgetBindings old ∨
      ¬ Gone before report old ∧ new = old)
    before.settings.files after.settings.files
  project : after.settings.project = before.settings.project
  settled : Settled (cleared before) after

section Runs

variable {workspace after : Workspace} {report : RemovalReport} {path : Pathname}
  {paths : List Pathname}

/-- A search of all output directories is followed by one look at the settings. -/
theorem removeAllBindings_settled (hnamed : workspace.tree.IsNamed)
    (hremovable : Removable workspace.tree (bindingsRoots workspace))
    (hsave : (save.execute ((cleared workspace).withSettings (cleared workspace).present)).1 =
      .ok ()) :
    ∃ report after, removeAllBindings.execute workspace = (.ok report, after) ∧
      Swept workspace.tree (bindingsRoots workspace) (cleared workspace).tree report ∧
      Settled (cleared workspace) after := by
  obtain ⟨report, noted, hroots, hswept⟩ :=
    execute_foldlM_removeBelow hnamed (swept_nil workspace.tree) hremovable
  obtain ⟨notices, hrun⟩ := execute_removeAllBindings workspace
  rw [hroots] at hrun
  dsimp only at hrun
  by_cases hsame : (cleared workspace).present = (cleared workspace).settings
  · refine ⟨report, _, hrun.trans (if_pos hsame), hswept, {
      settings := hsame.symm
      unsaved := fun _ => ⟨rfl, rfl⟩
      saved := fun hchanged => absurd hsame hchanged
      root := rfl
      types := rfl }⟩
  · have hend := hrun.trans (if_neg hsame)
    let forgotten := (cleared workspace).withSettings (cleared workspace).present
    change _ = ((save.execute (forgotten.withNotices noted)).1.map fun () => report,
      (save.execute (forgotten.withNotices noted)).2.withNotices notices) at hend
    rcases hforgotten : save.execute forgotten with ⟨outcome, saved⟩
    obtain rfl : outcome = .ok () := (congrArg Prod.fst hforgotten).symm.trans hsave
    rw [execute_save_withNotices, hforgotten] at hend
    obtain ⟨hstore, hroot, htypes⟩ := store_of_save hforgotten
    exact ⟨report, _, hend, hswept, {
      settings := settings_of_save hforgotten
      unsaved := fun hunchanged => absurd hunchanged hsame
      saved := fun _ => hstore
      root := hroot
      types := htypes }⟩

/-- Every path among some has the same components as one of the paths that are kept of them. -/
theorem exists_mem_distinctPaths (hpath : path ∈ paths) :
    ∃ root ∈ distinctPaths paths, root.same path = true := by
  induction paths using distinctPaths.induct generalizing path with
  | case1 => cases hpath
  | case2 only =>
    obtain rfl := List.mem_singleton.1 hpath
    exact ⟨path, List.mem_singleton_self path, Pathname.same_refl path⟩
  | case3 first second rest hsame ih =>
    rw [distinctPaths, if_pos hsame]
    rcases List.mem_cons.1 hpath with rfl | hrest
    · obtain ⟨root, hroot, hsecond⟩ := ih (List.mem_cons_self ..)
      refine ⟨root, hroot, beq_iff_eq.2 ?_⟩
      exact (beq_iff_eq.1 hsecond).trans (beq_iff_eq.1 hsame).symm
    · exact ih hrest
  | case4 first second rest hother ih =>
    rw [distinctPaths, if_neg hother]
    rcases List.mem_cons.1 hpath with rfl | hrest
    · exact ⟨path, List.mem_cons_self .., Pathname.same_refl path⟩
    · obtain ⟨root, hroot, hsame⟩ := ih hrest
      exact ⟨root, List.mem_cons_of_mem first hroot, hsame⟩

/-- Every output directory has the same components as one of those that are searched. -/
theorem exists_mem_bindingsRoots {setting : AssetOptions} (hsetting : setting ∈ workspace.settings.files) :
    ∃ root ∈ bindingsRoots workspace,
      root.same (workspace.locate (targetDirectory workspace.project setting false)) = true := by
  refine exists_mem_distinctPaths ?_
  rw [List.mem_mergeSort]
  exact List.mem_map.2 ⟨setting, hsetting, rfl⟩

/-- Outside the settings file, the files are as they were before the settings were saved. -/
theorem Settled.content (hsettled : Settled workspace after) {location : Location}
    (hother : workspace.settingsPlace? ≠ some location) :
    after.tree.content? location = workspace.tree.content? location := by
  by_cases hsame : workspace.present = workspace.settings
  · rw [(hsettled.unsaved hsame).2]
  · have hsaves := saves_save (workspace.withSettings workspace.present)
    have hrun := execute_save (workspace.withSettings workspace.present)
    have hstore : (workspace.withSettings workspace.present).store.save workspace.tree =
        (.ok (), after.store, after.tree) :=
      hsettled.saved hsame
    rw [hrun] at hsaves
    dsimp only [withSettings] at hsaves hstore
    rw [hstore] at hsaves
    exact hsaves.others location hother

/-- Bindings that are recorded are gone if nothing is held at their path any more. -/
theorem gone_iff (hswept : Swept workspace.tree (bindingsRoots workspace) (cleared workspace).tree report)
    (setting : AssetOptions) :
    Gone workspace report setting ↔ ∃ last, setting.lastBindings = some last ∧
      (cleared workspace).tree.holds (workspace.locate last) = false := by
  refine exists_congr fun last => and_congr_right fun _ => ?_
  rw [hswept.lacks.holds_eq_false_iff]
  refine or_congr_right ?_
  constructor
  · rintro ⟨path, hpath, hlast⟩
    exact ⟨_, List.mem_map_of_mem hpath, hlast⟩
  · rintro ⟨place, hplace, hlast⟩
    obtain ⟨path, hpath, rfl⟩ := List.mem_map.1 hplace
    exact ⟨path, hpath, hlast⟩

/-- Each setting forgets its bindings if they are gone, and is as before otherwise. -/
theorem forall₂_present
    (hswept : Swept workspace.tree (bindingsRoots workspace) (cleared workspace).tree report) :
    List.Forall₂
      (fun old new => Gone workspace report old ∧ new = forgetBindings old ∨
        ¬ Gone workspace report old ∧ new = old)
      workspace.settings.files (cleared workspace).present.files := by
  have hpresent : (cleared workspace).present.files =
      forgetMissing (cleared workspace) workspace.settings.files :=
    rfl
  rw [hpresent, forgetMissing, List.forall₂_map_right_iff, List.forall₂_same]
  intro setting _
  rw [gone_iff hswept]
  cases hlast : setting.lastBindings with
  | none => exact .inr ⟨by simp, rfl⟩
  | some last =>
    have hsame : (cleared workspace).locate last = workspace.locate last := rfl
    dsimp only
    rw [hsame]
    cases hholds : (cleared workspace).tree.holds (workspace.locate last) with
    | false => exact .inl ⟨⟨last, rfl, hholds⟩, rfl⟩
    | true => exact .inr ⟨by simp [hholds], rfl⟩

/-- After a search, the failures are the directories to which a walk came but into which it could not go. -/
theorem Swept.mem_failures_iff {start tree : FileTree} {roots : List Pathname} {failure : Failure}
    (hswept : Swept start roots tree report) :
    failure ∈ report.failures ↔
      ∃ root ∈ roots, ∃ top names fault, LeadsTo start root top ∧
        start.comesTo root top names = true ∧ start.entryAt (top ++ names) = some .directory ∧
        start.barrier? (pathTo root names) (top ++ names) = some fault ∧
        failure = .walk (pathTo root names) fault := by
  rw [hswept.failures]
  simp only [closed_mem_sightings_iff]
  refine exists_congr fun root => and_congr_right fun _ => ?_
  constructor
  · rintro ⟨-, fault, ⟨top, names, hleads, hcomes, hentry, rfl, hbarrier⟩, hfailure⟩
    exact ⟨top, names, fault, hleads, hcomes, hentry, hbarrier, hfailure⟩
  · rintro ⟨top, names, fault, hleads, hcomes, hentry, hbarrier, hfailure⟩
    exact ⟨_, fault, ⟨top, names, hleads, hcomes, hentry, rfl, hbarrier⟩, hfailure⟩

/-- After a search, bindings are left below a directory that was searched in other words only where the
walk could not come. -/
theorem Swept.left_of_same {start tree : FileTree} {roots : List Pathname} {root directory : Pathname}
    {top : Location} {names : List String} (hswept : Swept start roots tree report)
    (hroot : root ∈ roots) (hsame : root.same directory = true) (hleads : LeadsTo start directory top)
    (hnames : namedBindings names = true ∨ namedDescription names = true)
    (hleft : (tree.content? (top ++ names)).isSome) : start.comesTo root top names = false := by
  cases hrefusal : refusal? root with
  | none =>
    have hreached := locationOf_of_same hsame hleads.reached hleads.directory hrefusal
    exact hswept.left root hroot top names ⟨hreached, hleads.directory⟩ hnames hleft
  | some fault =>
    have hstart : (start.content? (top ++ names)).isSome := by
      rw [hswept.lacks.content] at hleft
      split at hleft
      · cases hleft
      · exact hleft
    exact comesTo_eq_false_of_refusal? hrefusal (hleads.ne_nil hstart) top

end Runs

/-- A project with an output directory inside another one. -/
def nestedProject : Workspace where
  tree := { entries := .ofList [
    (["Assets"], .directory),
    (["Assets", "UI"], .directory),
    (["Assets", "UI", "Menu.cs"], Entry.file (.text "class Menu {}")),
    (["Assets", "UI", "Menu.g.cs"], Entry.file (.text "partial class Menu {}")),
    (["Assets", "UI", "Old"], .directory),
    (["Assets", "UI", "Old", "Shop.g.cs.meta"], Entry.file (.text "guid"))] }
  store := .inMemory {
    files := [
      { path := "Menu.uxml", outputDirectory := "UI", lastBindings := some ⟨"Assets/UI/Menu.g.cs"⟩ },
      { path := "Shop.uxml", outputDirectory := "UI/Old" }] }
  root := ⟨""⟩

section Deep

/-- A text of slashes. -/
def slashes : Nat → String
  | 0 => ""
  | count + 1 => slashes count ++ "/"

/-- A project with nothing but a directory in its output directory, which is written with slashes at its
end. -/
def deepProject (count : Nat) : Workspace where
  tree := { entries := .ofList [
    (["Assets"], Entry.directory),
    (["Assets", "Markbind"], .directory),
    (["Assets", "Markbind", "Old"], .directory)] }
  store := .inMemory { files := [{ path := "Menu.uxml", outputDirectory := "Markbind" ++ slashes count }] }
  root := ⟨""⟩

/-- The output directory of this project. -/
def deepRoot (count : Nat) : Pathname :=
  ⟨"Assets/Markbind" ++ slashes count⟩

theorem text_deepRoot (count : Nat) : (deepRoot count).text = "Assets/Markbind" ++ slashes count :=
  rfl

theorem utf8ByteSize_slashes (count : Nat) : (slashes count).utf8ByteSize = count := by
  induction count with
  | zero => rfl
  | succ count ih =>
    rw [slashes, String.utf8ByteSize_append, ih]
    rfl

theorem pieces_deepRoot (count : Nat) :
    (deepRoot count).pieces = ["Assets".toList, "Markbind".toList] ++ List.replicate count [] := by
  induction count with
  | zero => decide
  | succ count ih =>
    have htext : (deepRoot (count + 1)).text.toList = (deepRoot count).text.toList ++ '/' :: [] := by
      simp only [text_deepRoot, slashes, String.toList_append, List.append_assoc]
      rfl
    rw [Pathname.pieces, htext, Text.splitOn_append_cons, List.replicate_succ', ← List.append_assoc]
    exact congrArg (· ++ [[]]) ih

/-- The slashes add no component. -/
theorem same_deepRoot (count : Nat) : (deepRoot count).same ⟨"Assets/Markbind"⟩ = true := by
  have hidle : (List.replicate count []).filterMap Pathname.component? = [] := by
    rw [List.filterMap_eq_nil_iff]
    intro piece hpiece
    rw [List.eq_of_mem_replicate hpiece]
    rfl
  rw [Pathname.same, Pathname.components, Pathname.split, pieces_deepRoot, List.cons_append]
  dsimp only
  rw [if_neg (by simp), if_neg (by decide)]
  dsimp only
  rw [← List.cons_append, ← List.singleton_append, List.filterMap_append, hidle]
  decide

/-- The output directory is the only one to be searched. -/
theorem bindingsRoots_deepProject (count : Nat) :
    bindingsRoots (deepProject count) = [deepRoot count] := by
  have hrelative : Pathname.isAbsolute ⟨"Markbind" ++ slashes count⟩ = false := by
    rw [Pathname.isAbsolute, String.toList_append]
    rfl
  have hdirectory : Pathname.join ⟨"Assets"⟩ ⟨"Markbind" ++ slashes count⟩ = deepRoot count := by
    have htext : "Assets" ++ "/" ++ ("Markbind" ++ slashes count) =
        "Assets/Markbind" ++ slashes count := by
      rw [← String.append_assoc]
      rfl
    rw [Pathname.join, hrelative, if_neg Bool.false_ne_true, if_neg (by decide)]
    exact congrArg Pathname.mk htext
  have hroot : (deepProject count).locate (targetDirectory (deepProject count).project
      { path := "Menu.uxml", outputDirectory := "Markbind" ++ slashes count } false) =
        deepRoot count := by
    rw [locate, targetDirectory]
    exact Pathname.join_empty.trans hdirectory
  have hroots : (deepProject count).settings.files.map (fun setting =>
      (deepProject count).locate (targetDirectory (deepProject count).project setting false)) =
        [deepRoot count] :=
    congrArg (fun root => [root]) hroot
  rw [bindingsRoots, hroots, List.mergeSort_singleton, distinctPaths]

/-- The output directory can be looked up as long as its path is not too long. -/
theorem refusal?_deepRoot {count : Nat} (hcount : count ≤ 4080) : refusal? (deepRoot count) = none := by
  have hchars (count : Nat) : '\x00' ∉ (slashes count).toList := by
    induction count with
    | zero => decide
    | succ count ih =>
      rw [slashes, String.toList_append, List.mem_append, not_or]
      exact ⟨ih, by decide⟩
  rw [← Option.not_isSome_iff_eq_none, isSome_refusal?_iff, text_deepRoot, String.toList_append,
    String.utf8ByteSize_append, utf8ByteSize_slashes, List.mem_append]
  have hname : "Assets/Markbind".utf8ByteSize = 15 := by decide
  rintro (hempty | (hzero | hzero) | hlong)
  · exact absurd (String.append_eq_empty_iff.1 hempty).1 (by decide)
  · exact absurd hzero (by decide)
  · exact hchars count hzero
  · rw [hname, maxPathBytes] at hlong
    omega

/-- A directory in the output directory cannot be looked up if its path becomes too long. -/
theorem isSome_refusal?_deepRoot {count : Nat} (hcount : 4078 ≤ count) :
    (refusal? (pathTo (deepRoot count) ["Old"])).isSome := by
  have hrelative : Pathname.isAbsolute ⟨"Old"⟩ = false := by decide
  obtain ⟨between, htext⟩ := Pathname.exists_text_join (deepRoot count) hrelative
  rw [isSome_refusal?_iff, pathTo_cons, pathTo_nil, htext, text_deepRoot]
  simp only [String.utf8ByteSize_append, utf8ByteSize_slashes]
  have hname : "Assets/Markbind".utf8ByteSize = 15 := by decide
  have hold : "Old".utf8ByteSize = 3 := by decide
  rw [hname, hold, maxPathBytes]
  right
  right
  omega

section Walks

variable {count : Nat}

/-- There is no file in the project. -/
theorem content?_deepProject (count : Nat) (location : Location) :
    (deepProject count).tree.content? location = none := by
  have hdirectories : ∀ entry ∈ (deepProject 0).tree.entries.toList, entry.2 = .directory := by
    decide +kernel
  rw [Option.eq_none_iff_forall_ne_some]
  intro content hcontent
  have hentry := content?_eq_some_iff.1 hcontent
  have hother : (deepProject count).tree.entryAt location ≠ some .directory := by simp [hentry]
  have hlocation := ne_nil_of_entryAt hother
  rw [entryAt, if_neg (by simpa using hlocation)] at hentry
  have hfile := hdirectories _ (Std.ExtTreeMap.mem_toList_iff_getElem?_eq_some.2 hentry)
  cases hfile

theorem directory_deepProject (count : Nat) :
    (deepProject count).tree.entryAt ["Assets", "Markbind"] = some .directory ∧
      (deepProject count).tree.entryAt ["Assets", "Markbind", "Old"] = some .directory := by
  change (deepProject 0).tree.entryAt ["Assets", "Markbind"] = _ ∧
    (deepProject 0).tree.entryAt ["Assets", "Markbind", "Old"] = _
  decide +kernel

/-- The output directory leads to its directory. -/
theorem locationOf_deepRoot (hcount : count ≤ 4080) :
    (deepProject count).tree.locationOf (deepRoot count) = .ok ["Assets", "Markbind"] := by
  have hpath : (deepProject count).tree.locationOf ⟨"Assets/Markbind"⟩ =
      .ok ["Assets", "Markbind"] := by
    change (deepProject 0).tree.locationOf ⟨"Assets/Markbind"⟩ = _
    decide +kernel
  exact locationOf_of_same (same_deepRoot count) hpath (directory_deepProject count).1
    (refusal?_deepRoot hcount)

/-- A walk through the output directory cannot go into the directory in it. -/
theorem closed_mem_sightings_deepProject (hcount : count ≤ 4080) (hlong : 4078 ≤ count) :
    ∃ fault, .closed (pathTo (deepRoot count) ["Old"]) fault ∈
      sightings (deepProject count).tree (deepRoot count) := by
  obtain ⟨fault, hfault⟩ := Option.isSome_iff_exists.1 (isSome_refusal?_deepRoot hlong)
  obtain ⟨hdirectory, hbelow⟩ := directory_deepProject count
  have hopen : (deepProject count).tree.barrier? (deepRoot count) ["Assets", "Markbind"] = none := by
    rw [barrier?, refusal?_deepRoot hcount]
    rfl
  have hclosed : (deepProject count).tree.barrier? (pathTo (deepRoot count) ["Old"])
      ["Assets", "Markbind", "Old"] = some fault := by
    rw [barrier?, hfault]
  have hcomes : (deepProject count).tree.comesTo (deepRoot count) ["Assets", "Markbind"] ["Old"] =
      true := by
    simpa [comesTo] using hopen
  exact ⟨fault, closed_mem_sightings_iff.2 ⟨_, ["Old"], ⟨locationOf_deepRoot hcount, hdirectory⟩,
    hcomes, hbelow, rfl, hclosed⟩⟩

theorem removable_deepProject (count : Nat) :
    Removable (deepProject count).tree (bindingsRoots (deepProject count)) := by
  rw [bindingsRoots_deepProject]
  refine ⟨fun path hpath => ?_, trivial⟩
  obtain ⟨-, top, names, -, -, hcontent, -⟩ := mem_bindingsBelow_iff.1 hpath
  rw [content?_deepProject] at hcontent
  cases hcontent

theorem isNamed_deepProject (count : Nat) : (deepProject count).tree.IsNamed := by
  change (deepProject 0).tree.IsNamed
  decide +kernel

end Walks

/-- A project in which a directory with bindings cannot be listed. -/
def lockedProject : Workspace where
  tree :=
    { entries := .ofList [
        (["Assets"], Entry.directory),
        (["Assets", "Markbind"], .directory),
        (["Assets", "Markbind", "Old"], .directory),
        (["Assets", "Markbind", "Old", "Menu.g.cs"], Entry.file (.text ""))]
      unlistable := [["Assets", "Markbind", "Old"]] }
  store := .inMemory { files := [{ path := "Menu.uxml", outputDirectory := "Markbind" }] }
  root := ⟨""⟩

end Deep

end UxmlBindings.Workspace
