import UxmlBindings.Proofs.Workspace.Courses

/-!
# Files that were taken into a project

A file that was taken into a project stays among the keys of the settings until it is taken out. An
operation on its path then never fails for want of a setting if the key is its own key, which it is
unless it still starts with a step into the directory itself. A key that does is looked up under
another one when a run records what it has written, and when a batch comes to it.
-/

namespace UxmlBindings.Workspace

open Binding Files FileTree Settings

/-- An action has failed because a path has no setting. -/
def Unregistered {α : Type} (outcome : Except Failure α) : Prop :=
  ∃ key, outcome = .error (.notConfigured key)

/-- No operation on a path fails because it has no setting. -/
structure Registered (workspace : Workspace) (path : String) : Prop where
  openAsset : ¬ Unregistered ((Workspace.openAsset path).execute workspace).1
  change : ∀ edit, ¬ Unregistered ((Workspace.change path edit).execute workspace).1
  writeBindings : ¬ Unregistered ((Workspace.writeBindings path).execute workspace).1
  writeScript : ¬ Unregistered ((Workspace.writeScript path).execute workspace).1
  removeBindings : ¬ Unregistered ((Workspace.removeBindings path).execute workspace).1
  writeAllBindings : ∀ result later,
    Workspace.writeAllBindings.execute workspace = (.ok result, later) →
      ∀ key, (keyOf path, .notConfigured key) ∉ result.failed

/-- An operation does not take the setting for a key away: it neither takes the file out of the
project nor gives its setting another path. -/
def Operation.Retains (key : String) : Operation → Prop
  | .disable path => keyOf path ≠ key
  | .change path edit =>
    keyOf path = key → ∀ setting, setting.path = key → (edit setting).path = key
  | _ => True

section Keys

variable {key path : String} {workspace : Workspace}

/-- What an operation does not take away remains among the keys. -/
theorem mem_keys_of_edits {operation : Operation} {start settings settings' : Settings}
    (hretains : operation.Retains key) (hedit : operation.Edits start settings settings')
    (hmem : key ∈ settings.keys) : key ∈ settings'.keys := by
  cases operation with
  | enable path =>
    obtain ⟨rfl, rfl⟩ := hedit
    exact mem_keys_add.2 (.inr hmem)
  | disable path =>
    obtain ⟨rfl, rfl⟩ := hedit
    exact mem_keys_remove (fun h => hretains h.symm) hmem
  | change path edit =>
    obtain ⟨rfl, rfl⟩ := hedit
    exact mem_keys_change (fun h => hretains h.symm) hmem
  | _ => exact hedit.keys ▸ hmem

/-- A file that is taken into a project is among the keys. -/
theorem mem_keys_enable (workspace : Workspace) (path : String) :
    keyOf path ∈ ((enable path).execute workspace).2.settings.keys := by
  obtain ⟨notices, hrun⟩ := execute_enable workspace path
  rw [hrun]
  cases hfind : workspace.settings.find? (keyOf path) with
  | some setting => exact isSome_find?_iff.1 (by rw [hfind]; rfl)
  | none =>
    have hsettings : (save.execute (workspace.withSettings (workspace.settings.add
        (.initial (keyOf path) workspace.project)))).2.settings =
        workspace.settings.add (.initial (keyOf path) workspace.project) :=
      settings_of_save rfl
    exact hsettings ▸ mem_keys_add.2 (.inl rfl)

/-- It stays there through a run in which no operation takes it away. -/
theorem mem_keys_afterAll {operations : List Operation} (workspace : Workspace) (path : String)
    (hretains : ∀ operation ∈ operations, operation.Retains (keyOf path)) :
    keyOf path ∈ (afterAll operations ((Operation.enable path).after workspace)).settings.keys := by
  let registers (workspace : Workspace) : Prop := keyOf path ∈ workspace.settings.keys
  have hstep (operation : Operation) (hoperation : operation ∈ operations) (earlier : Workspace)
      (hmem : registers earlier) : registers (operation.after earlier) :=
    (operation.course earlier).settings
      (fun _ _ => mem_keys_of_edits (hretains operation hoperation)) hmem
  have hstart : registers ((Operation.enable path).after workspace) := mem_keys_enable workspace path
  exact afterAll_induction hstart hstep

/-- All runs of a batch start with the same keys. -/
theorem keys_start_of_mem {paths : List String} {run : BatchRun}
    (hrun : run ∈ batchRuns paths workspace) :
    run.start.settings.keys = workspace.settings.keys := by
  induction paths generalizing workspace with
  | nil => cases hrun
  | cons path rest ih =>
    rcases List.mem_cons.1 hrun with rfl | hrest
    · rfl
    · let first : BatchRun := ⟨path, workspace⟩
      let same (settings : Settings) : Prop := settings.keys = workspace.settings.keys
      have hstart : same workspace.settings := rfl
      have hfirst : same first.after.settings :=
        (course_after first).settings (fun _ _ hedit hkeys => hedit.keys.trans hkeys) hstart
      exact (ih hrest).trans hfirst

end Keys

section Outcomes

variable {α β : Type} {workspace : Workspace} {path : String}

theorem Unregistered.of_error {failure : Failure}
    (hfails : Unregistered (.error failure : Except Failure α)) :
    Unregistered (.error failure : Except Failure β) := by
  obtain ⟨key, hkey⟩ := hfails
  exact ⟨key, congrArg _ (Except.error.inj hkey)⟩

theorem Unregistered.of_map {outcome : Except Failure α} {value : α → β}
    (hmap : Unregistered (outcome.map value)) : Unregistered outcome := by
  cases outcome with
  | error failure => exact Unregistered.of_error hmap
  | ok result =>
    obtain ⟨_, ⟨⟩⟩ := hmap

/-- A change for a key fails only if the settings cannot be saved. -/
theorem not_unregistered_change (hmem : keyOf path ∈ workspace.settings.keys)
    (edit : AssetOptions → AssetOptions) :
    ¬ Unregistered ((change path edit).execute workspace).1 := by
  rintro ⟨key, hkey⟩
  obtain ⟨setting, hfind⟩ := Option.isSome_iff_exists.1 (isSome_find?_iff.2 hmem)
  rw [execute_change, hfind] at hkey
  obtain ⟨error, herror⟩ := eq_settings_of_save (Prod.ext hkey rfl)
  cases herror

theorem not_unregistered_asset? (hmem : keyOf path ∈ workspace.settings.keys) :
    ¬ Unregistered (workspace.asset? path) := by
  intro hfails
  obtain ⟨setting, hfind⟩ := Option.isSome_iff_exists.1 (isSome_find?_iff.2 hmem)
  rw [asset?, hfind] at hfails
  dsimp only at hfails
  split at hfails
  · obtain ⟨_, ⟨⟩⟩ := hfails
  · rename_i markup _
    cases hread : Asset.read markup workspace.project setting with
    | error error | ok asset =>
      rw [hread] at hfails
      obtain ⟨_, ⟨⟩⟩ := hfails

theorem not_unregistered_ready? (hmem : keyOf path ∈ workspace.settings.keys) :
    ¬ Unregistered (workspace.ready? path) := by
  intro hfails
  unfold ready? at hfails
  split at hfails
  · exact not_unregistered_asset? hmem hfails
  · obtain ⟨_, ⟨⟩⟩ := hfails

theorem not_unregistered_bindings? (hmem : keyOf path ∈ workspace.settings.keys) :
    ¬ Unregistered (workspace.bindings? path) := by
  intro hfails
  unfold bindings? at hfails
  split at hfails
  · rename_i failure hready
    exact not_unregistered_ready? hmem (hready ▸ hfails.of_error)
  · split at hfails <;> obtain ⟨_, ⟨⟩⟩ := hfails

theorem not_unregistered_script? (hmem : keyOf path ∈ workspace.settings.keys) :
    ¬ Unregistered (workspace.script? path) := by
  intro hfails
  unfold script? at hfails
  split at hfails
  · rename_i failure hready
    exact not_unregistered_ready? hmem (hready ▸ hfails.of_error)
  · split at hfails <;> obtain ⟨_, ⟨⟩⟩ := hfails

/-- The source of an asset is its key. -/
theorem source_of_asset? {asset : Asset} (hasset : workspace.asset? path = .ok asset) :
    asset.source = keyOf path :=
  path_of_find? (asset?_eq_ok hasset).1

/-- A run for the bindings of a path records them under the key of the key. -/
theorem not_unregistered_writeBindings (hmem : keyOf path ∈ workspace.settings.keys)
    (hkey : keyOf (keyOf path) = keyOf path) :
    ¬ Unregistered ((writeBindings path).execute workspace).1 := by
  intro hfails
  cases hready : workspace.bindings? path with
  | error failure =>
    obtain ⟨notices, hrun⟩ := execute_writeBindings_of_error hready
    rw [hrun] at hfails
    exact not_unregistered_bindings? hmem (hready ▸ hfails.of_error)
  | ok ready =>
    obtain ⟨asset, text⟩ := ready
    have hasset := asset?_of_bindings? hready
    rcases hwrite : workspace.tree.writeWithParents (workspace.locate asset.bindingsPath)
      (.text text.code) with ⟨⟨place, fault⟩ | ⟨⟩, tree⟩
    · obtain ⟨notices, hrun⟩ := execute_writeBindings_of_unwritten hready hwrite
      rw [hrun] at hfails
      obtain ⟨_, ⟨⟩⟩ := hfails
    · obtain ⟨quiet, notices, hrun⟩ := execute_writeBindings_of_written hready hwrite
      rw [hrun] at hfails
      refine not_unregistered_change ?_ _ hfails.of_map
      rw [source_of_asset? hasset, hkey]
      exact hmem

theorem not_unregistered_writeScript (hmem : keyOf path ∈ workspace.settings.keys)
    (hkey : keyOf (keyOf path) = keyOf path) :
    ¬ Unregistered ((writeScript path).execute workspace).1 := by
  intro hfails
  cases hready : workspace.script? path with
  | error failure =>
    obtain ⟨notices, hrun⟩ := execute_writeScript_of_error hready
    rw [hrun] at hfails
    exact not_unregistered_script? hmem (hready ▸ hfails.of_error)
  | ok ready =>
    obtain ⟨asset, text⟩ := ready
    obtain ⟨hasset, -⟩ := script?_eq_ok hready
    obtain ⟨quiet, hrun⟩ := execute_writeScript_of_ok hready
    dsimp only at hrun
    rw [hrun] at hfails
    generalize scriptOutcome workspace.tree _ text.code = created at hfails
    obtain ⟨place, fault⟩ | outcome := created
    · obtain ⟨_, ⟨⟩⟩ := hfails
    · refine not_unregistered_change ?_ _ hfails.of_map
      rw [source_of_asset? hasset, hkey]
      exact hmem

theorem not_unregistered_removeBindings (hmem : keyOf path ∈ workspace.settings.keys)
    (hkey : keyOf (keyOf path) = keyOf path) :
    ¬ Unregistered ((removeBindings path).execute workspace).1 := by
  intro hfails
  obtain ⟨notices, hrun⟩ := execute_removeBindings workspace path
  obtain ⟨setting, hfind⟩ := Option.isSome_iff_exists.1 (isSome_find?_iff.2 hmem)
  rw [hrun, hfind] at hfails
  dsimp only at hfails
  cases hlast : setting.lastBindings with
  | none =>
    rw [hlast] at hfails
    obtain ⟨_, ⟨⟩⟩ := hfails
  | some last =>
    rw [hlast] at hfails
    obtain ⟨notices, hremove⟩ :=
      execute_removeRecorded workspace (keyOf path) (workspace.locate last)
    dsimp only at hfails
    rw [hremove] at hfails
    generalize removalDescribed workspace.tree _ = removed at hfails
    obtain ⟨place, fault⟩ | there := removed
    · obtain ⟨_, ⟨⟩⟩ := hfails
    · refine not_unregistered_change ?_ _ hfails.of_map
      rw [hkey]
      exact hmem

/-- Operations on the path of a key that is its own key find the setting. -/
theorem registered_of_mem_keys (hmem : keyOf path ∈ workspace.settings.keys)
    (hkey : keyOf (keyOf path) = keyOf path) : Registered workspace path where
  openAsset := by
    obtain ⟨notices, hrun⟩ := execute_openAsset workspace path
    rw [hrun]
    exact not_unregistered_asset? hmem
  change := not_unregistered_change hmem
  writeBindings := not_unregistered_writeBindings hmem hkey
  writeScript := not_unregistered_writeScript hmem hkey
  removeBindings := not_unregistered_removeBindings hmem hkey
  writeAllBindings := by
    intro result later hbatch key hfailed
    obtain ⟨notices, hrun⟩ := execute_writeAllBindings workspace
    rw [hrun] at hbatch
    split at hbatch
    · obtain ⟨hresult, -⟩ := Prod.mk.inj hbatch
      obtain rfl := Except.ok.inj hresult
      obtain ⟨run, hmemRun, hfailure⟩ := List.mem_filterMap.1 hfailed
      unfold BatchRun.failure? at hfailure
      split at hfailure
      · cases hfailure
      · rename_i failure houtcome
        obtain ⟨hpath, rfl⟩ := Prod.mk.inj (Option.some.inj hfailure)
        -- Earlier runs of the batch have kept the keys, and the key is looked up under itself.
        have hstart : keyOf run.path ∈ run.start.settings.keys := by
          rw [keys_start_of_mem hmemRun, hpath, hkey]
          exact hmem
        have hown : keyOf (keyOf run.path) = keyOf run.path := by rw [hpath, hkey, hkey]
        exact not_unregistered_writeBindings hstart hown ⟨key, houtcome⟩
    · cases hbatch

/-- A path that is no key is not registered, although it has a setting: the batch for a project with
this setting alone looks it up under another key. -/
theorem not_registered_of_keyOf_ne (hkey : keyOf (keyOf path) ≠ keyOf path) (workspace : Workspace)
    (henabled : workspace.project.enabled = true)
    (hfiles : workspace.settings.keys = [keyOf path]) : ¬ Registered workspace path := by
  intro hregistered
  obtain ⟨notices, hbatch⟩ := execute_writeAllBindings workspace
  rw [if_pos henabled] at hbatch
  refine hregistered.writeAllBindings _ _ hbatch (keyOf (keyOf path)) ?_
  -- The batch consists of one run, for the key, which looks up the key of the key.
  let run : BatchRun := ⟨keyOf path, workspace⟩
  have hruns : projectRuns workspace = [run] := by
    have hpaths : workspace.settings.files.map (·.path) = [keyOf path] := hfiles
    rw [projectRuns, hpaths]
    rfl
  have habsent : workspace.settings.find? (keyOf (keyOf path)) = none := by
    rw [← Option.not_isSome_iff_eq_none, isSome_find?_iff, hfiles, List.mem_singleton]
    exact hkey
  have hready : workspace.bindings? (keyOf path) = .error (.notConfigured (keyOf (keyOf path))) := by
    rw [bindings?, ready?, if_pos henabled, asset?, habsent]
  obtain ⟨quiet, hrun⟩ := execute_writeBindings_of_error hready
  have houtcome : run.outcome = .error (.notConfigured (keyOf (keyOf path))) :=
    congrArg Prod.fst hrun
  refine List.mem_filterMap.2 ⟨run, ?_, ?_⟩
  · rw [hruns]
    exact List.mem_cons_self ..
  · rw [BatchRun.failure?, houtcome]

end Outcomes

/-- A project without files. -/
def emptyProject : Workspace where
  tree := {}
  store := .inMemory {}
  root := ⟨""⟩

/-- With settings in memory, a file that was taken into a project is registered throughout every run
that does not take its setting away, exactly if its key does not start with a step into the directory
itself. -/
theorem registered_afterAll_iff (path : String) :
    (∀ workspace : Workspace, workspace.InMemory →
        ∀ operations : List Operation,
          (∀ operation ∈ operations, operation.Retains (keyOf path)) →
            Registered (afterAll operations ((Operation.enable path).after workspace)) path) ↔
      ¬ ['.', '/'] <+: (keyOf path).toList := by
  rw [← keyOf_keyOf_eq_iff]
  constructor
  · intro hregistered
    by_contra hkey
    have hempty := hregistered emptyProject ⟨0, rfl⟩ [] nofun
    exact not_registered_of_keyOf_ne hkey _ rfl rfl hempty
  · intro hkey workspace _ operations hretains
    exact registered_of_mem_keys (mem_keys_afterAll workspace path hretains) hkey

/-- A project with one markup file, which is not taken into it yet. -/
def singleProject : Workspace where
  tree := { entries := .ofList [(["Menu.uxml"], Entry.file (.text "<UXML/>"))] }
  store := .inMemory {}
  root := ⟨""⟩

theorem not_registered_doubled :
    singleProject.InMemory ∧
      ((enable "././Menu.uxml").execute singleProject).1 =
        .ok { path := "./Menu.uxml", outputDirectory := "Markbind" } ∧
      ((writeBindings "././Menu.uxml").execute
        ((Operation.enable "././Menu.uxml").after singleProject)).1 =
        .error (.notConfigured "Menu.uxml") ∧
      ¬ Registered ((Operation.enable "././Menu.uxml").after singleProject) "././Menu.uxml" := by
  have henabled : ((enable "././Menu.uxml").execute singleProject).1 =
      .ok { path := "./Menu.uxml", outputDirectory := "Markbind" } := by
    decide +kernel
  have hfails : ((writeBindings "././Menu.uxml").execute
      ((Operation.enable "././Menu.uxml").after singleProject)).1 =
      .error (.notConfigured "Menu.uxml") := by
    decide +kernel
  exact ⟨⟨0, rfl⟩, henabled, hfails, fun hregistered => hregistered.writeBindings ⟨_, hfails⟩⟩

end UxmlBindings.Workspace
