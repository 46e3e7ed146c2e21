import UxmlBindings.Proofs.Workspace.Effects
import UxmlBindings.Proofs.Workspace.Registered
import UxmlBindings.Proofs.Workspace.Tended

/-!
# Runs that fail

A run for bindings or a script fails before it has written anything, or because its file cannot be
written. What follows the writing cannot fail with settings in memory, under paths that are their own
keys: the clean-up passes over its failures, and the setting of the asset is found again. So a run that
fails leaves the settings as they were, on any system. It leaves all files as they were on a careful
system with room; only directories may have been made for the output. Where a write can break off, the
output may have been opened before.
-/

namespace UxmlBindings.Workspace

open Binding Files FileTree Settings

/-- A project has kept its files and settings: there may be further directories and notices, and nothing
else has changed. -/
structure Untouched (before after : Workspace) : Prop extends
    KeepsFiles before.tree after.tree where
  store : after.store = before.store
  root : after.root = before.root
  types : after.sessionTypes = before.sessionTypes

/-- Why a run fails, and what it leaves: there is nothing to write, or the writing fails, which may have
made directories on the way to the output. -/
inductive Fails (system : System) (workspace : Workspace)
    (ready : Except Failure (Asset × GeneratedText)) (output : Asset → Pathname) :
    Failure → FileTree → Prop
  | unready {failure : Failure} (hready : ready = .error failure) :
      Fails system workspace ready output failure workspace.tree
  | unwritten {asset : Asset} {text : GeneratedText} {place : Pathname} {fault : Fault}
      {tree : FileTree} (hready : ready = .ok (asset, text))
      (hwrite : system.writeWithParents workspace.tree (workspace.locate (output asset)) text.code =
        (.error (place, fault), tree)) :
      Fails system workspace ready output (.file place fault) tree

variable {system : System} {workspace later : Workspace} {path : String} {asset : Asset}
  {text : GeneratedText} {failure : Failure}

/-- The key of an asset is its own key if all keys are. -/
theorem Keyed.own (hkeyed : Keyed workspace) (hasset : workspace.asset? path = .ok asset) :
    keyOf (keyOf path) = keyOf path :=
  hkeyed.keys _ (isSome_find?_iff.1 (by rw [(asset?_eq_ok hasset).1]; rfl))

/-- The setting of an asset is found under the path of its source if that is its own key. -/
theorem isSome_find?_source (hkey : keyOf (keyOf path) = keyOf path)
    (hasset : workspace.asset? path = .ok asset) :
    (workspace.settings.find? (keyOf asset.source)).isSome := by
  rw [source_of_asset? hasset, hkey, (asset?_eq_ok hasset).1]
  rfl

/-- A run for bindings that has written its file succeeds. -/
theorem writeBindingsOn_succeeds {written : FileTree} (hmemory : workspace.InMemory)
    (hkey : keyOf (keyOf path) = keyOf path)
    (hready : workspace.bindings? path = .ok (asset, text))
    (hwrite : system.writeWithParents workspace.tree (workspace.locate asset.bindingsPath)
      text.code = (.ok (), written)) :
    ∃ saves notices, (writeBindingsOn system path).execute workspace =
      (.ok (bindingsReport workspace asset text),
        (((workspace.withTree (withoutStaleOn system (workspace.withTree written)
          asset.setting.lastBindings asset.bindingsPath)).remembering
            (workspace.settings.change (keyOf asset.source) asset.recordBindings)
            saves).withNotices notices)) := by
  obtain ⟨quiet, notices, hrun⟩ := execute_writeBindingsOn_of_written hready hwrite
  let cleaned := (workspace.withTree (withoutStaleOn system (workspace.withTree written)
    asset.setting.lastBindings asset.bindingsPath)).withNotices quiet
  have hcleaned : cleaned.InMemory := hmemory
  have hfind := isSome_find?_source hkey (asset?_of_bindings? hready)
  obtain ⟨saves, hchange⟩ :=
    execute_change_of_isSome hcleaned asset.source asset.recordBindings hfind
  dsimp only [cleaned] at hrun hchange
  rw [hchange] at hrun
  exact ⟨saves, notices, hrun⟩

/-- A script is kept if anything exists at its path, and otherwise comes to what its writing does. -/
theorem scriptOutcomeOn_cases (system : System) (tree : FileTree) (output : Pathname) (code : String) :
    (tree.holds output = true ∧ scriptOutcomeOn system tree output code = .ok .skipped ∧
        withScriptOn system tree output code = tree) ∨
      (tree.holds output = false ∧
        scriptOutcomeOn system tree output code =
          (system.writeWithParents tree output code).1.map (fun () => .written) ∧
        withScriptOn system tree output code = (system.writeWithParents tree output code).2) := by
  unfold scriptOutcomeOn withScriptOn
  cases hholds : tree.holds output with
  | true => exact .inl ⟨rfl, rfl, rfl⟩
  | false => exact .inr ⟨rfl, rfl, rfl⟩

/-- A run for a script that has created or kept its file succeeds. -/
theorem writeScriptOn_succeeds {outcome : Outcome} (hmemory : workspace.InMemory)
    (hkey : keyOf (keyOf path) = keyOf path)
    (hready : workspace.script? path = .ok (asset, text))
    (hcreated : scriptOutcomeOn system workspace.tree (workspace.locate asset.scriptPath) text.code =
      .ok outcome) :
    ∃ saves notices, (writeScriptOn system path).execute workspace =
      (.ok (scriptReport workspace asset text outcome),
        ((workspace.withTree (withScriptOn system workspace.tree (workspace.locate asset.scriptPath)
          text.code)).remembering
            (workspace.settings.change (keyOf asset.source) asset.recordScript)
            saves).withNotices notices) := by
  obtain ⟨quiet, hrun⟩ := execute_writeScriptOn_of_ok system hready
  let placed := (workspace.withTree (withScriptOn system workspace.tree
    (workspace.locate asset.scriptPath) text.code)).withNotices quiet
  have hplaced : placed.InMemory := hmemory
  have hfind := isSome_find?_source hkey (script?_eq_ok hready).1
  obtain ⟨saves, hchange⟩ := execute_change_of_isSome hplaced asset.source asset.recordScript hfind
  dsimp only [placed] at hrun hchange
  rw [hcreated, hchange] at hrun
  exact ⟨saves, quiet, hrun⟩

/-- A run for bindings that fails has nothing to write or cannot write it, and does nothing else. -/
theorem writeBindingsOn_fails (hkeyed : Keyed workspace)
    (hrun : (writeBindingsOn system path).execute workspace = (.error failure, later)) :
    Fails system workspace (workspace.bindings? path) Asset.bindingsPath failure later.tree ∧
      ∃ notices, later = (workspace.withTree later.tree).withNotices notices := by
  cases hready : workspace.bindings? path with
  | error reason =>
    obtain ⟨notices, hfails⟩ := execute_writeBindingsOn_of_error system hready
    rw [hrun, Prod.mk.injEq, Except.error.injEq] at hfails
    obtain ⟨rfl, rfl⟩ := hfails
    exact ⟨.unready rfl, notices, rfl⟩
  | ok ready =>
    obtain ⟨asset, text⟩ := ready
    rcases hwrite : system.writeWithParents workspace.tree (workspace.locate asset.bindingsPath)
      text.code with ⟨⟨place, fault⟩ | ⟨⟩, tree⟩
    · obtain ⟨notices, hfails⟩ := execute_writeBindingsOn_of_unwritten hready hwrite
      rw [hrun, Prod.mk.injEq, Except.error.injEq] at hfails
      obtain ⟨rfl, rfl⟩ := hfails
      exact ⟨.unwritten rfl hwrite, notices, rfl⟩
    · have hkey := hkeyed.own (asset?_of_bindings? hready)
      obtain ⟨saves, notices, hsucceeds⟩ :=
        writeBindingsOn_succeeds hkeyed.memory hkey hready hwrite
      rw [hrun] at hsucceeds
      cases congrArg Prod.fst hsucceeds

/-- A run for a script that fails has nothing to write or cannot write it, and does nothing else. -/
theorem writeScriptOn_fails (hkeyed : Keyed workspace)
    (hrun : (writeScriptOn system path).execute workspace = (.error failure, later)) :
    Fails system workspace (workspace.script? path) Asset.scriptPath failure later.tree ∧
      ∃ notices, later = (workspace.withTree later.tree).withNotices notices := by
  cases hready : workspace.script? path with
  | error reason =>
    obtain ⟨notices, hfails⟩ := execute_writeScriptOn_of_error system hready
    rw [hrun, Prod.mk.injEq, Except.error.injEq] at hfails
    obtain ⟨rfl, rfl⟩ := hfails
    exact ⟨.unready rfl, notices, rfl⟩
  | ok ready =>
    obtain ⟨asset, text⟩ := ready
    cases hcreated : scriptOutcomeOn system workspace.tree (workspace.locate asset.scriptPath)
      text.code with
    | ok outcome =>
      have hkey := hkeyed.own (script?_eq_ok hready).1
      obtain ⟨saves, notices, hsucceeds⟩ :=
        writeScriptOn_succeeds hkeyed.memory hkey hready hcreated
      rw [hrun] at hsucceeds
      cases congrArg Prod.fst hsucceeds
    | error blocked =>
      obtain ⟨place, fault⟩ := blocked
      obtain ⟨quiet, hfails⟩ := execute_writeScriptOn_of_ok system hready
      dsimp only at hfails
      rw [hcreated, hrun, Prod.mk.injEq, Except.error.injEq] at hfails
      obtain ⟨rfl, rfl⟩ := hfails
      refine ⟨?_, quiet, rfl⟩
      rcases scriptOutcomeOn_cases system workspace.tree (workspace.locate asset.scriptPath)
        text.code with ⟨-, hkept, -⟩ | ⟨-, hmade, htree⟩
      · rw [hcreated] at hkept
        cases hkept
      rw [hcreated] at hmade
      rcases hwrite : system.writeWithParents workspace.tree (workspace.locate asset.scriptPath)
        text.code with ⟨⟨blocked, reason⟩ | ⟨⟩, tree⟩
      · rw [hwrite] at hmade htree
        obtain ⟨rfl, rfl⟩ := Prod.mk.inj (Except.error.inj hmade)
        have hleft : (workspace.withTree (withScriptOn system workspace.tree
            (workspace.locate asset.scriptPath) text.code)).tree = tree :=
          htree
        exact hleft ▸ .unwritten rfl hwrite
      · rw [hwrite] at hmade
        cases hmade

/-- A run has broken off: its output was opened, but could not be filled. -/
def BreaksOff (system : System) (workspace : Workspace)
    (ready : Except Failure (Asset × GeneratedText)) (output : Asset → Pathname) (failure : Failure)
    (tree : FileTree) : Prop :=
  ∃ asset text made opened fault, ready = .ok (asset, text) ∧ KeepsFiles workspace.tree made ∧
    system.create made (workspace.locate (output asset)) = (.ok (), opened) ∧
    system.fill opened (workspace.locate (output asset)) text.code = (.error fault, tree) ∧
    failure = .file (workspace.locate (output asset)) fault

/-- On a careful system, a run that fails leaves all files as they were, or has broken off. -/
theorem Fails.keepsFiles_or_breaksOff {ready : Except Failure (Asset × GeneratedText)}
    {output : Asset → Pathname} {tree : FileTree} (hcareful : system.IsCareful)
    (hfails : Fails system workspace ready output failure tree) :
    KeepsFiles workspace.tree tree ∨ BreaksOff system workspace ready output failure tree := by
  cases hfails with
  | unready hready => exact .inl (.refl workspace.tree)
  | unwritten hready hwrite =>
    rcases hcareful.of_unwritten hwrite with hkeeps | ⟨made, opened, hmade, hcreate, hfill, rfl⟩
    · exact .inl hkeeps
    · exact .inr ⟨_, _, made, opened, _, hready, hmade, hcreate, hfill, rfl⟩

/-- On a careful system with room, a run that fails leaves all files as they were. -/
theorem Fails.keepsFiles {ready : Except Failure (Asset × GeneratedText)} {output : Asset → Pathname}
    {tree : FileTree} (hcareful : system.IsCareful) (hroom : system.HasRoom)
    (hfails : Fails system workspace ready output failure tree) : KeepsFiles workspace.tree tree := by
  rcases hfails.keepsFiles_or_breaksOff hcareful with
    hkeeps | ⟨asset, text, made, opened, fault, -, -, hcreate, hfill, -⟩
  · exact hkeeps
  · have hfilled := hroom made _ text.code opened hcreate
    rw [hfill] at hfilled
    cases hfilled

/-- A run that does nothing but to leave all files as they were leaves the project untouched. -/
theorem untouched_of_keepsFiles (hkeeps : KeepsFiles workspace.tree later.tree)
    (hsame : ∃ notices, later = (workspace.withTree later.tree).withNotices notices) :
    Untouched workspace later := by
  obtain ⟨notices, hsame⟩ := hsame
  rw [hsame]
  exact ⟨hkeeps, rfl, rfl, rfl⟩

/-- On any careful system, a run for bindings or a script that fails leaves the settings as they were, with
settings in memory under paths that are their own keys. It leaves all files as they were as well, unless
it has broken off. -/
theorem run_fails_or_breaks_off (hcareful : system.IsCareful) (hkeyed : Keyed workspace)
    (path : String) :
    (∀ failure later, (writeBindingsOn system path).execute workspace = (.error failure, later) →
      later.store = workspace.store ∧ (KeepsFiles workspace.tree later.tree ∨
        BreaksOff system workspace (workspace.bindings? path) Asset.bindingsPath failure
          later.tree)) ∧
    (∀ failure later, (writeScriptOn system path).execute workspace = (.error failure, later) →
      later.store = workspace.store ∧ (KeepsFiles workspace.tree later.tree ∨
        BreaksOff system workspace (workspace.script? path) Asset.scriptPath failure
          later.tree)) := by
  constructor
  · intro failure later hrun
    obtain ⟨hfails, notices, hsame⟩ := writeBindingsOn_fails hkeyed hrun
    exact ⟨by rw [hsame]; rfl, hfails.keepsFiles_or_breaksOff hcareful⟩
  · intro failure later hrun
    obtain ⟨hfails, notices, hsame⟩ := writeScriptOn_fails hkeyed hrun
    exact ⟨by rw [hsame]; rfl, hfails.keepsFiles_or_breaksOff hcareful⟩

/-- A system without space for what is to be written. -/
def fullSystem : System :=
  { System.plain with fill := fun tree _ _ => (.error .noSpace, tree) }

/-- A project with a file that gives nothing to bind. -/
def menuProject : Workspace where
  tree := { entries := .ofList [(["Menu.uxml"], Entry.file (.text "<UXML/>"))] }
  store := .inMemory { files := [{ path := "Menu.uxml" }] }
  root := ⟨""⟩

example :
    ((writeBindingsOn fullSystem "Menu.uxml").execute menuProject).1 =
        .error (.file ⟨"Assets/Menu.g.cs"⟩ .noSpace) ∧
      ((writeBindingsOn fullSystem "Menu.uxml").execute menuProject).2.tree.content?
        ["Assets", "Menu.g.cs"] = some (.text "") := by
  decide +kernel

/-- A project in which a file is in the way of the output directory. -/
def blockedProject : Workspace where
  tree := { entries := .ofList [(["Menu.uxml"], Entry.file (.text "<UXML/>"))] }
  store := .inMemory { files := [{ path := "Menu.uxml", outputDirectory := "../Menu.uxml" }] }
  root := ⟨""⟩

end UxmlBindings.Workspace
