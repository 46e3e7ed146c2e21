import UxmlBindings.Proofs.Files.Systems
import UxmlBindings.Proofs.Settings.Entries
import UxmlBindings.Workspace.Operations

/-!
# What actions do

An action runs step by step: `execute_bind` passes on the value and the workspace of its first part.
What an operation does to files and settings is stated here without the notices, which no operation
reads. `bindings?` and `script?` say what a run has to write, before it writes anything.
-/

namespace UxmlBindings

open Binding Files Settings Workspace

namespace Workspace

/-- The workspace with other notices. -/
def withNotices (workspace : Workspace) (notices : List Notice) : Workspace :=
  { workspace with notices }

/-- The workspace with other files. -/
def withTree (workspace : Workspace) (tree : FileTree) : Workspace :=
  { workspace with tree }

section Execution

variable {α β : Type} (workspace : Workspace)

@[simp] theorem execute_pure (value : α) :
    (pure value : WorkspaceM α).execute workspace = (.ok value, workspace) :=
  rfl

@[simp] theorem execute_throw (failure : Failure) :
    (throw failure : WorkspaceM α).execute workspace = (.error failure, workspace) :=
  rfl

@[simp] theorem execute_get_bind (next : Workspace → WorkspaceM α) :
    (get >>= next).execute workspace = (next workspace).execute workspace :=
  rfl

/-- The second part of an action runs on what the first part leaves, unless that fails. -/
theorem execute_bind (action : WorkspaceM α) (next : α → WorkspaceM β) :
    (action >>= next).execute workspace =
      match action.execute workspace with
      | (.ok value, later) => (next value).execute later
      | (.error failure, later) => (.error failure, later) := by
  have hparts : (action >>= next).execute workspace =
      ExceptT.bindCont next (action.execute workspace).1 (action.execute workspace).2 :=
    rfl
  rw [hparts]
  cases action.execute workspace with
  | mk outcome later => cases outcome <;> rfl

theorem execute_bind_ok {action : WorkspaceM α} {value : α} {workspace later : Workspace}
    (haction : action.execute workspace = (.ok value, later)) (next : α → WorkspaceM β) :
    (action >>= next).execute workspace = (next value).execute later := by
  rw [execute_bind, haction]

theorem execute_bind_error {action : WorkspaceM α} {failure : Failure} {workspace later : Workspace}
    (haction : action.execute workspace = (.error failure, later)) (next : α → WorkspaceM β) :
    (action >>= next).execute workspace = (.error failure, later) := by
  rw [execute_bind, haction]

@[simp] theorem execute_notify (notice : Notice) :
    (notify notice).execute workspace =
      (.ok (), workspace.withNotices (workspace.notices ++ [notice])) :=
  rfl

@[simp] theorem execute_setSettings (settings : Settings) :
    (setSettings settings).execute workspace = (.ok (), workspace.withSettings settings) :=
  rfl

@[simp] theorem execute_setTree (tree : FileTree) :
    (setTree tree).execute workspace = (.ok (), workspace.withTree tree) :=
  rfl

@[simp] theorem execute_attempt (action : WorkspaceM α) :
    (attempt action).execute workspace =
      (.ok (action.execute workspace).1, (action.execute workspace).2) :=
  rfl

end Execution

section Parts

variable (workspace : Workspace)

/-- Saving saves the store, which may change files. -/
theorem execute_save :
    save.execute workspace =
      match workspace.store.save workspace.tree with
      | (saved, store, tree) => (saved.mapError .settings, { workspace with store, tree }) := by
  rw [save, execute_get_bind]
  rcases workspace.store.save workspace.tree with ⟨saved, store, tree⟩
  cases saved <;> rfl

/-- Notices do not matter to a save. -/
theorem execute_save_withNotices (notices : List Notice) :
    save.execute (workspace.withNotices notices) =
      ((save.execute workspace).1, (save.execute workspace).2.withNotices notices) := by
  rw [execute_save, execute_save]
  rfl

/-- The outcome of an action that only deals with files: a fault comes with the path it concerns. -/
def fileOutcome {α : Type} (result : Except (Pathname × Fault) α) : Except Failure α :=
  result.mapError fun (place, fault) => .file place fault

/-- Writing a file changes no more than files. -/
theorem execute_writeFileOn (system : System) (path : Pathname) (text : String) :
    (writeFileOn system path text).execute workspace =
      (fileOutcome (system.writeWithParents workspace.tree path text).1,
        workspace.withTree (system.writeWithParents workspace.tree path text).2) := by
  rw [writeFileOn, execute_get_bind]
  rcases system.writeWithParents workspace.tree path text with ⟨written, tree⟩
  cases written <;> rfl

theorem execute_writeFile (path : Pathname) (text : String) :
    (writeFile path text).execute workspace =
      match workspace.tree.writeWithParents path (.text text) with
      | (written, tree) =>
        (fileOutcome written, workspace.withTree tree) := by
  rw [writeFile, execute_writeFileOn, System.plain_writeWithParents]

/-- What the removal of a file comes to that need not be there. -/
def removalOutcome (path : Pathname) : Except Fault Unit → Except Failure Bool
  | .ok () => .ok true
  | .error .notFound => .ok false
  | .error fault => .error (.file path fault)

/-- A file is removed if it is there. -/
theorem execute_removeIfThereOn (system : System) (path : Pathname) :
    (removeIfThereOn system path).execute workspace =
      (removalOutcome path (system.removeFile workspace.tree path).1,
        workspace.withTree (system.removeFile workspace.tree path).2) := by
  rw [removeIfThereOn, execute_get_bind]
  rcases system.removeFile workspace.tree path with ⟨fault | ⟨⟩, tree⟩
  · cases fault <;> rfl
  · rfl

theorem execute_removeIfThere (path : Pathname) :
    (removeIfThere path).execute workspace =
      match workspace.tree.removeFile path with
      | .ok tree => (.ok true, workspace.withTree tree)
      | .error .notFound => (.ok false, workspace)
      | .error fault => (.error (.file path fault), workspace) := by
  rw [removeIfThere, execute_removeIfThereOn, System.plain_removeFile]
  cases workspace.tree.removeFile path with
  | ok tree => rfl
  | error fault => cases fault <;> rfl

/-- Changing a setting replaces it and saves. -/
theorem execute_change (path : String) (edit : AssetOptions → AssetOptions) :
    (change path edit).execute workspace =
      match workspace.settings.find? (keyOf path) with
      | none => (.error (.notConfigured (keyOf path)), workspace)
      | some _ =>
        save.execute (workspace.withSettings (workspace.settings.change (keyOf path) edit)) := by
  rw [change, execute_get_bind]
  dsimp only
  cases workspace.settings.find? (keyOf path) <;> rfl

/-- The settings are kept in memory. -/
def InMemory : Prop :=
  ∃ saves, workspace.store.backing = .memory saves

/-- The workspace with other settings in memory, after some number of saves. -/
def remembering (settings : Settings) (saves : Nat) : Workspace :=
  { workspace with store := { settings, backing := .memory saves } }

variable {workspace}

/-- Settings in memory are saved without changing files. -/
theorem execute_save_of_inMemory (hmemory : workspace.InMemory) :
    ∃ saves, save.execute workspace =
      (.ok (), workspace.remembering workspace.settings saves) := by
  obtain ⟨saves, hbacking⟩ := hmemory
  refine ⟨saves + 1, ?_⟩
  rw [execute_save, Store.save, hbacking]
  rfl

/-- With settings in memory, a change reaches the settings and nothing else. -/
theorem execute_change_of_inMemory (hmemory : workspace.InMemory) (path : String)
    (edit : AssetOptions → AssetOptions) :
    ∃ outcome saves, (change path edit).execute workspace =
      (outcome, workspace.remembering (workspace.settings.change (keyOf path) edit) saves) := by
  rw [execute_change]
  cases hfind : workspace.settings.find? (keyOf path) with
  | none =>
    obtain ⟨saves, hbacking⟩ := hmemory
    refine ⟨.error (.notConfigured (keyOf path)), saves, ?_⟩
    rw [change_of_find?_eq_none hfind, remembering, ← hbacking]
    rfl
  | some setting =>
    have hchanged : (workspace.withSettings (workspace.settings.change (keyOf path) edit)).InMemory :=
      hmemory
    obtain ⟨saves, hsave⟩ := execute_save_of_inMemory hchanged
    exact ⟨_, saves, hsave⟩

end Parts

section Sources

variable (workspace : Workspace)

/-- The asset of a path, or why it cannot be read. -/
def asset? (path : String) : Except Failure Asset :=
  match workspace.settings.find? (keyOf path) with
  | none => .error (.notConfigured (keyOf path))
  | some setting =>
    match workspace.tree.readText (workspace.locate ⟨setting.path⟩) with
    | .error fault => .error (.file (workspace.locate ⟨setting.path⟩) fault)
    | .ok markup => (Asset.read markup workspace.project setting).mapError (.document setting.path)

/-- The asset of a path from which something is generated, or why nothing is. -/
def ready? (path : String) : Except Failure Asset :=
  if workspace.project.enabled then workspace.asset? path else .error .disabled

/-- The bindings of an asset in the workspace. -/
def bindingsText (asset : Asset) : Except GenerationError GeneratedText :=
  documentBindings workspace.elementTypes workspace.project.duplicateNames asset.root
    asset.setting.shape asset.assetName

/-- The script of an asset. -/
def Asset.scriptText (asset : Asset) : Except GenerationError GeneratedText :=
  assetScript asset.setting.shape asset.assetName

/-- What a run for the bindings of a path has to write, or why it writes nothing. -/
def bindings? (path : String) : Except Failure (Asset × GeneratedText) :=
  match workspace.ready? path with
  | .error failure => .error failure
  | .ok asset =>
    match workspace.bindingsText asset with
    | .error error => .error (.generation error)
    | .ok text => .ok (asset, text)

/-- What a run for the script of a path has to write, or why it writes nothing. -/
def script? (path : String) : Except Failure (Asset × GeneratedText) :=
  match workspace.ready? path with
  | .error failure => .error failure
  | .ok asset =>
    match asset.scriptText with
    | .error error => .error (.generation error)
    | .ok text => .ok (asset, text)

end Sources

/-- The settings without the paths of bindings that do not exist. -/
def present (workspace : Workspace) : Settings :=
  { workspace.settings with files := forgetMissing workspace workspace.settings.files }

/-- A setting without the path of its bindings. -/
def forgetBindings (setting : AssetOptions) : AssetOptions :=
  { setting with lastBindings := none }

section Operations

variable (workspace : Workspace)

/-- Reading an asset changes nothing. -/
theorem execute_readAsset (setting : AssetOptions) :
    (readAsset setting).execute workspace =
      (match workspace.tree.readText (workspace.locate ⟨setting.path⟩) with
        | .error fault => .error (.file (workspace.locate ⟨setting.path⟩) fault)
        | .ok markup =>
          (Asset.read markup workspace.project setting).mapError (.document setting.path),
        workspace) := by
  rw [readAsset, execute_get_bind]
  dsimp only
  cases workspace.tree.readText (workspace.locate ⟨setting.path⟩) with
  | error fault => rfl
  | ok markup =>
    dsimp only
    cases Asset.read markup workspace.project setting <;> rfl

/-- Opening an asset yields it and at most adds a notice. -/
theorem execute_openAsset (path : String) :
    ∃ notices, (openAsset path).execute workspace =
      (workspace.asset? path, workspace.withNotices notices) := by
  rw [openAsset, execute_get_bind, asset?]
  dsimp only
  cases workspace.settings.find? (keyOf path) with
  | none => exact ⟨_, rfl⟩
  | some setting => exact ⟨workspace.notices, execute_readAsset workspace setting⟩

/-- A disabled project fails with a notice. -/
theorem execute_requireEnabled :
    ∃ notices, requireEnabled.execute workspace =
      (if workspace.project.enabled then .ok () else .error .disabled,
        workspace.withNotices notices) := by
  rw [requireEnabled, execute_get_bind]
  split
  · exact ⟨workspace.notices, rfl⟩
  · exact ⟨_, rfl⟩

/-- Notices change nothing else. -/
theorem execute_forM_notify {α : Type} (values : List α) (notice : α → Notice) :
    ∃ notices, (values.forM fun value => notify (notice value)).execute workspace =
      (.ok (), workspace.withNotices notices) := by
  induction values generalizing workspace with
  | nil => exact ⟨workspace.notices, rfl⟩
  | cons value rest ih =>
    rw [List.forM, execute_bind_ok (execute_notify workspace (notice value))]
    exact ih _

/-- What is done with an asset is done if the asset is ready. -/
theorem execute_ready_bind {α : Type} (path : String) (next : Asset → WorkspaceM α) :
    ∃ notices, (do requireEnabled; let asset ← openAsset path; next asset).execute workspace =
      match workspace.ready? path with
      | .ok asset => (next asset).execute (workspace.withNotices notices)
      | .error failure => (.error failure, workspace.withNotices notices) := by
  obtain ⟨first, hfirst⟩ := execute_requireEnabled workspace
  unfold ready?
  split at hfirst
  · rename_i henabled
    obtain ⟨second, hsecond⟩ :
        ∃ notices, (openAsset path).execute (workspace.withNotices first) =
          (workspace.asset? path, workspace.withNotices notices) :=
      execute_openAsset _ path
    refine ⟨second, ?_⟩
    rw [execute_bind_ok hfirst, execute_bind, hsecond, if_pos henabled]
    cases workspace.asset? path <;> rfl
  · rename_i hdisabled
    refine ⟨first, ?_⟩
    rw [execute_bind_error hfirst, if_neg hdisabled]

/-- The tree without the file at a path, if that can be removed. -/
def withoutFile (tree : FileTree) (path : Pathname) : FileTree :=
  match tree.removeFile path with
  | .ok tree => tree
  | .error _ => tree

/-- The tree without the file that describes the file at a path. There is none if something is in
the way of the removal. -/
def withoutDescription? (tree : FileTree) (path : Pathname) : Option FileTree :=
  match tree.removeFile (path.extend metaEnding) with
  | .ok tree => some tree
  | .error .notFound => some tree
  | .error _ => none

/-- The tree after a file and the file that describes it were removed, as far as that is possible.
-/
def withoutDescribed (tree : FileTree) (path : Pathname) : FileTree :=
  match withoutDescription? tree path with
  | none => tree
  | some tree => withoutFile tree path

/-- The tree after the bindings of an earlier run were removed. -/
def withoutStale (workspace : Workspace) (previous : Option Pathname) (current : Pathname) :
    FileTree :=
  match previous with
  | none => workspace.tree
  | some previous =>
    if previous.same current then workspace.tree
    else withoutDescribed workspace.tree (workspace.locate previous)

/-- Whether there was a file at a path to be removed, unless something is in the way. -/
def removal (tree : FileTree) (path : Pathname) : Except (Pathname × Fault) Bool :=
  match tree.removeFile path with
  | .ok _ => .ok true
  | .error .notFound => .ok false
  | .error fault => .error (path, fault)

/-- Whether there was a file to be removed with the file that describes it, unless something is in the
way of one of them. -/
def removalDescribed (tree : FileTree) (path : Pathname) : Except (Pathname × Fault) Bool :=
  match removal tree (path.extend metaEnding) with
  | .error fault => .error fault
  | .ok _ => removal (withoutFile tree (path.extend metaEnding)) path

/-- Removing a file if it is there changes files only. -/
theorem execute_removeIfThere_withoutFile (path : Pathname) :
    (removeIfThere path).execute workspace =
      (fileOutcome (removal workspace.tree path),
        workspace.withTree (withoutFile workspace.tree path)) := by
  rw [execute_removeIfThere, removal, withoutFile]
  cases workspace.tree.removeFile path with
  | ok tree => rfl
  | error fault => cases fault <;> rfl

/-- Removing a file and its description changes files only. -/
theorem execute_removeDescribed (path : Pathname) :
    (removeDescribed path).execute workspace =
      (fileOutcome (removalDescribed workspace.tree path),
        workspace.withTree (withoutDescribed workspace.tree path)) := by
  have hparts : removeDescribed path =
      removeIfThere (path.extend metaEnding) >>= fun _ => removeIfThere path :=
    rfl
  rw [hparts, execute_bind, execute_removeIfThere_withoutFile, removalDescribed, removal,
    withoutDescribed, withoutDescription?, withoutFile]
  cases workspace.tree.removeFile (path.extend metaEnding) with
  | ok tree => exact execute_removeIfThere_withoutFile (workspace.withTree tree) path
  | error fault =>
    cases fault with
    | notFound => exact execute_removeIfThere_withoutFile workspace path
    | _ => rfl

/-- The tree as a system leaves it that removes a file and the file that describes it. -/
def withoutDescribedOn (system : System) (tree : FileTree) (path : Pathname) : FileTree :=
  match system.removeFile tree (path.extend metaEnding) with
  | (.ok (), tree) => (system.removeFile tree path).2
  | (.error .notFound, tree) => (system.removeFile tree path).2
  | (.error _, tree) => tree

/-- The tree as a system leaves it that removes the bindings of an earlier run. -/
def withoutStaleOn (system : System) (workspace : Workspace) (previous : Option Pathname)
    (current : Pathname) : FileTree :=
  match previous with
  | none => workspace.tree
  | some previous =>
    if previous.same current then workspace.tree
    else withoutDescribedOn system workspace.tree (workspace.locate previous)

/-- Removing a file and its description changes files only. -/
theorem execute_removeDescribedOn (system : System) (path : Pathname) :
    ∃ outcome, (removeDescribedOn system path).execute workspace =
      (outcome, workspace.withTree (withoutDescribedOn system workspace.tree path)) := by
  rw [removeDescribedOn, execute_bind, execute_removeIfThereOn, withoutDescribedOn]
  rcases system.removeFile workspace.tree (path.extend metaEnding) with ⟨fault | ⟨⟩, tree⟩
  · cases fault with
    | notFound => exact ⟨_, execute_removeIfThereOn (workspace.withTree tree) system path⟩
    | _ => exact ⟨_, rfl⟩
  · exact ⟨_, execute_removeIfThereOn (workspace.withTree tree) system path⟩

/-- Removing the bindings of an earlier run never fails. -/
theorem execute_removeStaleOn (system : System) (previous : Option Pathname) (current : Pathname) :
    ∃ notices, (removeStaleOn system previous current).execute workspace =
      (.ok (), (workspace.withTree
        (withoutStaleOn system workspace previous current)).withNotices notices) := by
  unfold removeStaleOn withoutStaleOn
  cases previous with
  | none => exact ⟨workspace.notices, rfl⟩
  | some previous =>
    dsimp only
    split
    · exact ⟨workspace.notices, rfl⟩
    · obtain ⟨outcome, hremoved⟩ :=
        execute_removeDescribedOn workspace system (workspace.locate previous)
      rw [execute_get_bind, execute_bind, execute_attempt, hremoved]
      cases outcome with
      | error failure => exact ⟨_, rfl⟩
      | ok there => cases there <;> exact ⟨_, rfl⟩

/-- A plain system removes the bindings of an earlier run from the tree. -/
theorem withoutStaleOn_plain (previous : Option Pathname) (current : Pathname) :
    withoutStaleOn .plain workspace previous current = withoutStale workspace previous current := by
  have hdescribed (tree : FileTree) (path : Pathname) :
      withoutDescribedOn .plain tree path = withoutDescribed tree path := by
    have hfile (tree : FileTree) : (System.plain.removeFile tree path).2 = withoutFile tree path := by
      rw [System.plain_removeFile, withoutFile]
      cases tree.removeFile path <;> rfl
    unfold withoutDescribedOn withoutDescribed withoutDescription?
    simp only [hfile]
    rw [System.plain_removeFile]
    cases tree.removeFile (path.extend metaEnding) with
    | ok later => rfl
    | error fault => cases fault <;> rfl
  unfold withoutStaleOn withoutStale
  simp only [hdescribed]

/-- What is noted after saving does not matter. -/
theorem execute_save_notify {α : Type} (notice : Notice) (value : α) :
    ∃ notices, (do save; notify notice; return value).execute workspace =
      ((save.execute workspace).1.map fun () => value,
        (save.execute workspace).2.withNotices notices) := by
  rcases hsave : save.execute workspace with ⟨⟨failure⟩ | ⟨⟩, later⟩
  · exact ⟨later.notices, execute_bind_error hsave _⟩
  · exact ⟨_, execute_bind_ok hsave _⟩

/-- A file that is taken into the project gets a setting, unless it has one. -/
theorem execute_enable (path : String) :
    ∃ notices, (enable path).execute workspace =
      match workspace.settings.find? (keyOf path) with
      | some setting => (.ok setting, workspace)
      | none =>
        let setting := AssetOptions.initial (keyOf path) workspace.project
        let saved := save.execute (workspace.withSettings (workspace.settings.add setting))
        (saved.1.map fun () => setting, saved.2.withNotices notices) := by
  rw [enable, execute_get_bind]
  dsimp only
  cases workspace.settings.find? (keyOf path) with
  | some setting => exact ⟨workspace.notices, rfl⟩
  | none =>
    dsimp only
    rw [execute_bind_ok (execute_setSettings workspace _)]
    exact execute_save_notify _ _ _

/-- A file that is taken out of the project loses its setting, if it has one. -/
theorem execute_disable (path : String) :
    ∃ notices, (disable path).execute workspace =
      match workspace.settings.find? (keyOf path) with
      | none => (.ok none, workspace)
      | some setting =>
        let saved := save.execute (workspace.withSettings (workspace.settings.remove (keyOf path)))
        (saved.1.map fun () => some setting, saved.2.withNotices notices) := by
  rw [disable, execute_get_bind]
  dsimp only
  rw [take_eq]
  cases workspace.settings.find? (keyOf path) with
  | none => exact ⟨workspace.notices, rfl⟩
  | some setting =>
    dsimp only
    rw [execute_bind_ok (execute_setSettings workspace _)]
    exact execute_save_notify _ _ _

/-- The part of a removal of bindings that comes after their path was found. -/
def removeRecorded (key : String) (target : Pathname) : WorkspaceM (Option Pathname) := do
  let removed ← removeDescribed target
  change key forgetBindings
  if removed then
    notify (.removedBindings target)
    return some target
  else return none

/-- Bindings are removed and forgotten. They are not forgotten if they cannot be removed. -/
theorem execute_removeRecorded (key : String) (target : Pathname) :
    ∃ notices : List Notice, (removeRecorded key target).execute workspace =
      let cleared := workspace.withTree (withoutDescribed workspace.tree target)
      match removalDescribed workspace.tree target with
      | .error (place, fault) => (.error (.file place fault), cleared)
      | .ok there =>
        let forgotten := (change key forgetBindings).execute cleared
        (forgotten.1.map fun () => if there then some target else none,
          forgotten.2.withNotices notices) := by
  rw [removeRecorded]
  dsimp only
  have hremoved := execute_removeDescribed workspace target
  generalize removalDescribed workspace.tree target = removed at hremoved ⊢
  obtain ⟨place, fault⟩ | there := removed
  · exact ⟨workspace.notices, execute_bind_error hremoved _⟩
  · rw [execute_bind_ok hremoved]
    rcases hchange : (change key forgetBindings).execute
      (workspace.withTree (withoutDescribed workspace.tree target)) with ⟨⟨failure⟩ | ⟨⟩, later⟩
    · exact ⟨later.notices, execute_bind_error hchange _⟩
    · rw [execute_bind_ok hchange]
      cases there with
      | true => exact ⟨_, rfl⟩
      | false => exact ⟨later.notices, rfl⟩

/-- The bindings of a file are those that are recorded in its setting. -/
theorem execute_removeBindings (path : String) :
    ∃ notices : List Notice, (removeBindings path).execute workspace =
      match workspace.settings.find? (keyOf path) with
      | none => (.error (.notConfigured (keyOf path)), workspace.withNotices notices)
      | some setting =>
        match setting.lastBindings with
        | none => (.ok none, workspace)
        | some last =>
          (removeRecorded (keyOf path) (workspace.locate last)).execute workspace := by
  rw [removeBindings, execute_get_bind]
  dsimp only
  cases workspace.settings.find? (keyOf path) with
  | none => exact ⟨_, rfl⟩
  | some setting =>
    dsimp only
    cases setting.lastBindings with
    | none => exact ⟨workspace.notices, rfl⟩
    | some last => exact ⟨workspace.notices, rfl⟩

/-- Once the bindings below all output directories were removed, those that do not exist are forgotten,
which is saved if it changes the settings. -/
theorem execute_removeAllBindings :
    ∃ notices : List Notice, removeAllBindings.execute workspace =
      match ((bindingsRoots workspace).foldlM removeBelow {}).execute workspace with
      | (.error failure, cleared) => (.error failure, cleared)
      | (.ok report, cleared) =>
        if cleared.present = cleared.settings then (.ok report, cleared.withNotices notices)
        else
          let saved := save.execute (cleared.withSettings cleared.present)
          (saved.1.map fun () => report, saved.2.withNotices notices) := by
  rw [removeAllBindings, execute_get_bind]
  rcases hroots : ((bindingsRoots workspace).foldlM removeBelow {}).execute workspace with
    ⟨⟨failure⟩ | ⟨report⟩, cleared⟩
  · exact ⟨workspace.notices, execute_bind_error hroots _⟩
  · rw [execute_bind_ok hroots, execute_get_bind]
    dsimp only
    by_cases hfiles : forgetMissing cleared cleared.settings.files = cleared.settings.files
    · have hpresent : cleared.present = cleared.settings := by rw [present, hfiles]
      rw [if_neg (by simp [hfiles])]
      simp only [if_pos hpresent]
      exact ⟨_, rfl⟩
    · have hpresent : cleared.present ≠ cleared.settings := fun hsame =>
        hfiles (congrArg Settings.files hsame)
      rw [if_pos (by simp [hfiles]), execute_bind_ok (execute_setSettings cleared _)]
      simp only [if_neg hpresent]
      exact execute_save_notify _ _ _

end Operations

end Workspace

end UxmlBindings
