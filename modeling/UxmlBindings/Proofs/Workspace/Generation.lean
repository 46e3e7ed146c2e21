import UxmlBindings.Proofs.Outcome
import UxmlBindings.Proofs.Workspace.Actions

/-!
# What generation does

A run for bindings fails without changing anything if it has nothing to write, and otherwise writes
its file, removes the bindings of an earlier run, and records the path. A run for a script skips
writing where something exists. Both record what they wrote by changing the setting, which can fail
after the file was written. This is said of any system first, and then of a plain one.
-/

namespace UxmlBindings.Workspace

open Binding Files Settings

/-- What is recorded of bindings that were written for an asset. -/
def Asset.recordBindings (asset : Asset) (setting : AssetOptions) : AssetOptions :=
  { setting with lastBindings := some asset.bindingsPath }

/-- What is recorded of a script that was written for an asset, or kept. -/
def Asset.recordScript (asset : Asset) (setting : AssetOptions) : AssetOptions :=
  { setting with lastScript := some asset.scriptPath }

variable (workspace : Workspace)

/-- What is reported of bindings that were written. -/
def bindingsReport (asset : Asset) (text : GeneratedText) : Report where
  source := asset.source
  className := text.className
  output := workspace.locate asset.bindingsPath
  outcome := .written
  warnings := text.warnings

variable {workspace} {path : String} {asset : Asset} {text : GeneratedText} {failure : Failure}

/-- What is ready and generated is to be written. -/
theorem generation_eq_ok_iff {ready : Except Failure Asset}
    {generate : Asset → Except GenerationError GeneratedText} :
    (match ready with
      | .error failure => Except.error failure
      | .ok asset =>
        match generate asset with
        | .error error => .error (Failure.generation error)
        | .ok text => .ok (asset, text)) = .ok (asset, text) ↔
      ready = .ok asset ∧ generate asset = .ok text := by
  cases ready with
  | error failure => simp
  | ok opened =>
    dsimp only
    cases hgenerated : generate opened with
    | error error =>
      simp only [reduceCtorEq, Except.ok.injEq, false_iff, not_and]
      rintro rfl
      simp [hgenerated]
    | ok generated =>
      simp only [Except.ok.injEq, Prod.mk.injEq]
      constructor
      · rintro ⟨rfl, rfl⟩
        exact ⟨rfl, hgenerated⟩
      · rintro ⟨rfl, htext⟩
        exact ⟨rfl, Except.ok.inj (hgenerated.symm.trans htext)⟩

theorem bindings?_eq_ok_iff :
    workspace.bindings? path = .ok (asset, text) ↔
      workspace.ready? path = .ok asset ∧ workspace.bindingsText asset = .ok text :=
  generation_eq_ok_iff

theorem script?_eq_ok_iff :
    workspace.script? path = .ok (asset, text) ↔
      workspace.ready? path = .ok asset ∧ asset.scriptText = .ok text :=
  generation_eq_ok_iff

/-- An asset that is ready can be opened. -/
theorem asset?_of_ready? (hready : workspace.ready? path = .ok asset) :
    workspace.asset? path = .ok asset := by
  unfold ready? at hready
  split at hready
  · exact hready
  · cases hready

/-- An asset for which there is something to write can be opened. -/
theorem asset?_of_bindings? (hready : workspace.bindings? path = .ok (asset, text)) :
    workspace.asset? path = .ok asset :=
  asset?_of_ready? (bindings?_eq_ok_iff.1 hready).1

/-- An asset has the setting it was read with, and its files are named after its class. -/
theorem Asset.read_eq_ok {markup : String} {project : ProjectOptions} {setting : AssetOptions}
    (hread : Asset.read markup project setting = .ok asset) :
    asset.setting = setting ∧ ∃ directory : Pathname,
      asset.bindingsPath = directory.join ⟨asset.assetName.className ++ bindingsEnding⟩ ∧
      asset.scriptPath = directory.join ⟨asset.assetName.className ++ scriptEnding⟩ := by
  obtain ⟨root, -, hrest⟩ := bind_eq_ok_iff.1 hread
  obtain ⟨editorOnly, -, hasset⟩ := bind_eq_ok_iff.1 hrest
  obtain rfl := Except.ok.inj hasset
  exact ⟨rfl, _, rfl, rfl⟩

/-- An asset is opened if its setting is found and its source is read. -/
theorem asset?_eq_ok_iff :
    workspace.asset? path = .ok asset ↔ ∃ setting markup,
      workspace.settings.find? (keyOf path) = some setting ∧
        workspace.tree.readText (workspace.locate ⟨setting.path⟩) = .ok markup ∧
        Asset.read markup workspace.project setting = .ok asset := by
  unfold asset?
  cases workspace.settings.find? (keyOf path) with
  | none => simp
  | some setting =>
    dsimp only
    cases hmarkup : workspace.tree.readText (workspace.locate ⟨setting.path⟩) with
    | error fault => simp [hmarkup]
    | ok markup => simp [mapError_eq_ok_iff, hmarkup]

/-- An asset that is opened has a setting of the project. -/
theorem asset?_eq_ok (hasset : workspace.asset? path = .ok asset) :
    workspace.settings.find? (keyOf path) = some asset.setting ∧ ∃ directory : Pathname,
      asset.bindingsPath = directory.join ⟨asset.assetName.className ++ bindingsEnding⟩ ∧
      asset.scriptPath = directory.join ⟨asset.assetName.className ++ scriptEnding⟩ := by
  obtain ⟨setting, markup, hfind, -, hread⟩ := asset?_eq_ok_iff.1 hasset
  obtain ⟨rfl, hpaths⟩ := Asset.read_eq_ok hread
  exact ⟨hfind, hpaths⟩

/-- What is done with generated text is done if something was generated. -/
theorem execute_generated_bind {α β : Type} (workspace : Workspace)
    (result : Except GenerationError α) (next : α → WorkspaceM β) :
    (generated result >>= next).execute workspace =
      match result with
      | .ok value => (next value).execute workspace
      | .error error => (.error (.generation error), workspace) := by
  cases result <;> rfl

section Systems

variable (system : System)

/-- The part of a run for bindings that comes after they were generated. -/
def placeBindingsOn (output : Pathname) (asset : Asset) (text : GeneratedText) :
    WorkspaceM Report := do
  writeFileOn system output text.code
  removeStaleOn system asset.setting.lastBindings asset.bindingsPath
  change asset.source asset.recordBindings
  notify (.wroteBindings output asset.source)
  return {
    source := asset.source
    className := text.className
    output
    outcome := .written
    warnings := text.warnings }

/-- A run for bindings places what there is to write, and changes nothing if there is nothing. -/
theorem execute_writeBindingsOn (workspace : Workspace) (path : String) :
    ∃ notices, (writeBindingsOn system path).execute workspace =
      match workspace.bindings? path with
      | .error failure => (.error failure, workspace.withNotices notices)
      | .ok (asset, text) =>
        (placeBindingsOn system (workspace.locate asset.bindingsPath) asset text).execute
          (workspace.withNotices notices) := by
  unfold writeBindingsOn bindings?
  obtain ⟨notices, hready⟩ := execute_ready_bind workspace path _
  rw [hready]
  cases workspace.ready? path with
  | error failure => exact ⟨notices, rfl⟩
  | ok asset =>
    dsimp only
    let noted := workspace.withNotices (notices ++ [.generating asset.source])
    have hnoted : (notify (.generating asset.source)).execute (workspace.withNotices notices) =
        (.ok (), noted) := rfl
    have hsource : documentBindings noted.elementTypes noted.project.duplicateNames asset.root
        asset.setting.shape asset.assetName = workspace.bindingsText asset := rfl
    rw [execute_bind_ok hnoted, execute_get_bind, execute_generated_bind, hsource]
    cases workspace.bindingsText asset with
    | error error => exact ⟨_, rfl⟩
    | ok text =>
      obtain ⟨more, hmore⟩ := execute_forM_notify noted text.warnings
        (.generationWarning asset.source)
      exact ⟨more, execute_bind_ok hmore _⟩

/-- Placing bindings writes the file, removes the bindings of an earlier run and records the path.
If the file cannot be written, nothing else is done. -/
theorem execute_placeBindingsOn (workspace : Workspace) (output : Pathname) (asset : Asset)
    (text : GeneratedText) :
    match system.writeWithParents workspace.tree output text.code with
    | (.error (place, fault), tree) =>
      (placeBindingsOn system output asset text).execute workspace =
        (.error (.file place fault), workspace.withTree tree)
    | (.ok (), tree) =>
      ∃ notices outcome later,
        (change asset.source asset.recordBindings).execute
          ((workspace.withTree (withoutStaleOn system (workspace.withTree tree)
            asset.setting.lastBindings asset.bindingsPath)).withNotices notices) =
              (outcome, later) ∧
        ∃ more, (placeBindingsOn system output asset text).execute workspace =
          (outcome.map fun () =>
            { source := asset.source, className := text.className, output, outcome := .written,
              warnings := text.warnings }, later.withNotices more) := by
  have hwrite := execute_writeFileOn workspace system output text.code
  generalize system.writeWithParents workspace.tree output text.code = written at hwrite ⊢
  obtain ⟨⟨place, fault⟩ | ⟨⟩, tree⟩ := written
  · exact execute_bind_error hwrite _
  · obtain ⟨notices, hstale⟩ := execute_removeStaleOn (workspace.withTree tree) system
      asset.setting.lastBindings asset.bindingsPath
    let cleaned := (workspace.withTree (withoutStaleOn system (workspace.withTree tree)
      asset.setting.lastBindings asset.bindingsPath)).withNotices notices
    rcases hchange : (change asset.source asset.recordBindings).execute cleaned with ⟨outcome, later⟩
    refine ⟨notices, outcome, later, hchange, ?_⟩
    rw [placeBindingsOn, execute_bind_ok hwrite, execute_bind_ok hstale]
    cases outcome with
    | error failure => exact ⟨later.notices, execute_bind_error hchange _⟩
    | ok => exact ⟨_, execute_bind_ok hchange _⟩

/-- The part of a run for a script that comes after it was generated. -/
def placeScriptOn (output : Pathname) (asset : Asset) (text : GeneratedText) :
    WorkspaceM Report := do
  let outcome ← createScriptOn system output asset.source text.code
  change asset.source asset.recordScript
  return {
    source := asset.source
    className := text.className
    output
    outcome
    warnings := text.warnings }

/-- A run for a script places what there is to write, and changes nothing if there is nothing. -/
theorem execute_writeScriptOn (workspace : Workspace) (path : String) :
    ∃ notices, (writeScriptOn system path).execute workspace =
      match workspace.script? path with
      | .error failure => (.error failure, workspace.withNotices notices)
      | .ok (asset, text) =>
        (placeScriptOn system (workspace.locate asset.scriptPath) asset text).execute
          (workspace.withNotices notices) := by
  unfold writeScriptOn script?
  obtain ⟨notices, hready⟩ := execute_ready_bind workspace path _
  rw [hready]
  cases workspace.ready? path with
  | error failure => exact ⟨notices, rfl⟩
  | ok asset =>
    dsimp only
    have hsource : assetScript asset.setting.shape asset.assetName = asset.scriptText := rfl
    rw [execute_generated_bind, hsource]
    cases asset.scriptText with
    | error error => exact ⟨notices, rfl⟩
    | ok text => exact ⟨notices, rfl⟩

/-- The files after a script was created: as before if anything exists at its path. -/
def withScriptOn (tree : FileTree) (output : Pathname) (code : String) : FileTree :=
  if tree.holds output then tree else (system.writeWithParents tree output code).2

/-- What comes of creating a script: it is kept if anything exists at its path, and otherwise written
unless that is not possible. -/
def scriptOutcomeOn (tree : FileTree) (output : Pathname) (code : String) :
    Except (Pathname × Fault) Outcome :=
  if tree.holds output then .ok .skipped
  else (system.writeWithParents tree output code).1.map fun () => .written

/-- Creating a script changes files only. -/
theorem execute_createScriptOn (workspace : Workspace) (output : Pathname) (source code : String) :
    ∃ notices, (createScriptOn system output source code).execute workspace =
      (fileOutcome (scriptOutcomeOn system workspace.tree output code),
        (workspace.withTree (withScriptOn system workspace.tree output code)).withNotices notices) := by
  rw [createScriptOn, execute_get_bind, withScriptOn, scriptOutcomeOn]
  by_cases hholds : workspace.tree.holds output
  · rw [if_pos hholds, if_pos hholds, if_pos hholds]
    exact ⟨_, rfl⟩
  · rw [if_neg hholds, if_neg hholds, if_neg hholds, execute_bind, execute_writeFileOn]
    generalize system.writeWithParents workspace.tree output code = written
    obtain ⟨fault | ⟨⟩, tree⟩ := written
    · exact ⟨workspace.notices, rfl⟩
    · exact ⟨_, rfl⟩

/-- What is reported of a script that was written or kept. -/
def scriptReport (workspace : Workspace) (asset : Asset) (text : GeneratedText) (outcome : Outcome) :
    Report where
  source := asset.source
  className := text.className
  output := workspace.locate asset.scriptPath
  outcome
  warnings := text.warnings

/-- Placing a script creates it and records its path. If it cannot be created, nothing else is done.
-/
theorem execute_placeScriptOn (workspace : Workspace) (asset : Asset) (text : GeneratedText) :
    ∃ quiet : List Notice,
      let output := workspace.locate asset.scriptPath
      let placed := (workspace.withTree
        (withScriptOn system workspace.tree output text.code)).withNotices quiet
      (placeScriptOn system output asset text).execute workspace =
        match scriptOutcomeOn system workspace.tree output text.code with
        | .error (place, fault) => (.error (.file place fault), placed)
        | .ok outcome =>
          let changed := (change asset.source asset.recordScript).execute placed
          (changed.1.map fun () => scriptReport workspace asset text outcome, changed.2) := by
  obtain ⟨quiet, hcreate⟩ := execute_createScriptOn system workspace
    (workspace.locate asset.scriptPath) asset.source text.code
  refine ⟨quiet, ?_⟩
  intro output placed
  rw [placeScriptOn]
  rcases houtcome : scriptOutcomeOn system workspace.tree output text.code with
    ⟨place, fault⟩ | outcome
  · rw [houtcome] at hcreate
    exact execute_bind_error hcreate _
  · rw [houtcome] at hcreate
    rw [execute_bind_ok hcreate]
    rcases hchange : (change asset.source asset.recordScript).execute placed with
      ⟨⟨failure⟩ | ⟨⟩, later⟩
    · exact execute_bind_error hchange _
    · exact execute_bind_ok hchange _

/-- A run that has nothing to write changes nothing. -/
theorem execute_writeBindingsOn_of_error (hready : workspace.bindings? path = .error failure) :
    ∃ notices, (writeBindingsOn system path).execute workspace =
      (.error failure, workspace.withNotices notices) := by
  obtain ⟨notices, hrun⟩ := execute_writeBindingsOn system workspace path
  rw [hready] at hrun
  exact ⟨notices, hrun⟩

/-- A run for a script that has nothing to write changes nothing. -/
theorem execute_writeScriptOn_of_error (hready : workspace.script? path = .error failure) :
    ∃ notices, (writeScriptOn system path).execute workspace =
      (.error failure, workspace.withNotices notices) := by
  obtain ⟨notices, hrun⟩ := execute_writeScriptOn system workspace path
  rw [hready] at hrun
  exact ⟨notices, hrun⟩

/-- A run for a script that has something to write creates it, records its path, and reports what it has
done. If the script cannot be created, nothing else is done. -/
theorem execute_writeScriptOn_of_ok (hready : workspace.script? path = .ok (asset, text)) :
    ∃ quiet,
      let output := workspace.locate asset.scriptPath
      let placed := (workspace.withTree
        (withScriptOn system workspace.tree output text.code)).withNotices quiet
      (writeScriptOn system path).execute workspace =
        match scriptOutcomeOn system workspace.tree output text.code with
        | .error (place, fault) => (.error (.file place fault), placed)
        | .ok outcome =>
          let changed := (change asset.source asset.recordScript).execute placed
          (changed.1.map fun () => scriptReport workspace asset text outcome, changed.2) := by
  obtain ⟨notices, hrun⟩ := execute_writeScriptOn system workspace path
  rw [hready] at hrun
  obtain ⟨quiet, hplace⟩ := execute_placeScriptOn system (workspace.withNotices notices) asset text
  exact ⟨quiet, hrun.trans hplace⟩

variable {system}

/-- A run that cannot write its file does nothing else. -/
theorem execute_writeBindingsOn_of_unwritten {place : Pathname} {fault : Fault} {tree : FileTree}
    (hready : workspace.bindings? path = .ok (asset, text))
    (hwrite : system.writeWithParents workspace.tree (workspace.locate asset.bindingsPath)
      text.code = (.error (place, fault), tree)) :
    ∃ notices, (writeBindingsOn system path).execute workspace =
      (.error (.file place fault), (workspace.withTree tree).withNotices notices) := by
  obtain ⟨notices, hrun⟩ := execute_writeBindingsOn system workspace path
  rw [hready] at hrun
  have hplace := execute_placeBindingsOn system (workspace.withNotices notices)
    (workspace.locate asset.bindingsPath) asset text
  have hnoted : (workspace.withNotices notices).tree = workspace.tree := rfl
  rw [hnoted, hwrite] at hplace
  exact ⟨notices, hrun.trans hplace⟩

/-- A run that has written its file cleans up, records the path, and reports what it wrote. -/
theorem execute_writeBindingsOn_of_written {tree : FileTree}
    (hready : workspace.bindings? path = .ok (asset, text))
    (hwrite : system.writeWithParents workspace.tree (workspace.locate asset.bindingsPath)
      text.code = (.ok (), tree)) :
    ∃ quiet notices,
      let changed := (change asset.source asset.recordBindings).execute
        ((workspace.withTree (withoutStaleOn system (workspace.withTree tree)
          asset.setting.lastBindings asset.bindingsPath)).withNotices quiet)
      (writeBindingsOn system path).execute workspace =
        (changed.1.map fun () => bindingsReport workspace asset text,
          changed.2.withNotices notices) := by
  obtain ⟨first, hrun⟩ := execute_writeBindingsOn system workspace path
  rw [hready] at hrun
  have hplace := execute_placeBindingsOn system (workspace.withNotices first)
    (workspace.locate asset.bindingsPath) asset text
  have hnoted : (workspace.withNotices first).tree = workspace.tree := rfl
  rw [hnoted, hwrite] at hplace
  obtain ⟨quiet, outcome, later, hchange, more, hplaced⟩ := hplace
  refine ⟨quiet, more, ?_⟩
  intro changed
  have hchanged : changed = (outcome, later) := hchange
  rw [hchanged]
  exact hrun.trans hplaced

end Systems

theorem execute_writeBindings_of_error (hready : workspace.bindings? path = .error failure) :
    ∃ notices, (writeBindings path).execute workspace =
      (.error failure, workspace.withNotices notices) :=
  execute_writeBindingsOn_of_error .plain hready

theorem execute_writeBindings_of_unwritten {place : Pathname} {fault : Fault} {tree : FileTree}
    (hready : workspace.bindings? path = .ok (asset, text))
    (hwrite : workspace.tree.writeWithParents (workspace.locate asset.bindingsPath)
      (.text text.code) = (.error (place, fault), tree)) :
    ∃ notices, (writeBindings path).execute workspace =
      (.error (.file place fault), (workspace.withTree tree).withNotices notices) := by
  rw [← System.plain_writeWithParents] at hwrite
  exact execute_writeBindingsOn_of_unwritten hready hwrite

theorem execute_writeBindings_of_written {tree : FileTree}
    (hready : workspace.bindings? path = .ok (asset, text))
    (hwrite : workspace.tree.writeWithParents (workspace.locate asset.bindingsPath)
      (.text text.code) = (.ok (), tree)) :
    ∃ quiet notices,
      let changed := (change asset.source asset.recordBindings).execute
        ((workspace.withTree (withoutStale (workspace.withTree tree) asset.setting.lastBindings
          asset.bindingsPath)).withNotices quiet)
      (writeBindings path).execute workspace =
        (changed.1.map fun () => bindingsReport workspace asset text,
          changed.2.withNotices notices) := by
  rw [← System.plain_writeWithParents] at hwrite
  rw [← withoutStaleOn_plain]
  exact execute_writeBindingsOn_of_written hready hwrite

/-- What there is to write for a script comes from an asset that can be opened. -/
theorem script?_eq_ok (hready : workspace.script? path = .ok (asset, text)) :
    workspace.asset? path = .ok asset ∧ asset.scriptText = .ok text :=
  (script?_eq_ok_iff.1 hready).imp_left asset?_of_ready?

/-- The files after a script was created: as before if anything exists at its path. -/
def withScript (tree : FileTree) (output : Pathname) (code : String) : FileTree :=
  if tree.holds output then tree else (tree.writeWithParents output (.text code)).2

/-- What comes of creating a script: it is kept if anything exists at its path, and otherwise written
unless that is not possible. -/
def scriptOutcome (tree : FileTree) (output : Pathname) (code : String) :
    Except (Pathname × Fault) Outcome :=
  if tree.holds output then .ok .skipped
  else (tree.writeWithParents output (.text code)).1.map fun () => .written

/-- A plain system creates a script as the tree does. -/
theorem withScriptOn_plain : withScriptOn .plain = withScript := by
  funext tree output code
  rw [withScriptOn, System.plain_writeWithParents]
  rfl

theorem scriptOutcomeOn_plain : scriptOutcomeOn .plain = scriptOutcome := by
  funext tree output code
  rw [scriptOutcomeOn, System.plain_writeWithParents]
  rfl

theorem execute_writeScript_of_error (hready : workspace.script? path = .error failure) :
    ∃ notices, (writeScript path).execute workspace =
      (.error failure, workspace.withNotices notices) :=
  execute_writeScriptOn_of_error .plain hready

theorem execute_writeScript_of_ok (hready : workspace.script? path = .ok (asset, text)) :
    ∃ quiet,
      let output := workspace.locate asset.scriptPath
      let placed := (workspace.withTree (withScript workspace.tree output text.code)).withNotices quiet
      (writeScript path).execute workspace =
        match scriptOutcome workspace.tree output text.code with
        | .error (place, fault) => (.error (.file place fault), placed)
        | .ok outcome =>
          let changed := (change asset.source asset.recordScript).execute placed
          (changed.1.map fun () => scriptReport workspace asset text outcome, changed.2) := by
  rw [← withScriptOn_plain, ← scriptOutcomeOn_plain]
  exact execute_writeScriptOn_of_ok .plain hready

/-- With settings in memory, a run for a script changes no files but by creating it, and no setting
but by recording it. -/
theorem writeScript_of_inMemory (hmemory : workspace.InMemory) (path : String) :
    ∃ outcome later, (writeScript path).execute workspace = (outcome, later) ∧ later.InMemory ∧
      (later.settings = workspace.settings ∨
        ∃ asset : Asset,
          later.settings = workspace.settings.change (keyOf asset.source) asset.recordScript) ∧
      later.tree =
        match workspace.script? path with
        | .error _ => workspace.tree
        | .ok (asset, text) =>
          withScript workspace.tree (workspace.locate asset.scriptPath) text.code := by
  cases hready : workspace.script? path with
  | error failure =>
    obtain ⟨notices, hrun⟩ := execute_writeScript_of_error hready
    exact ⟨_, _, hrun, hmemory, .inl rfl, rfl⟩
  | ok ready =>
    obtain ⟨asset, text⟩ := ready
    obtain ⟨quiet, hrun⟩ := execute_writeScript_of_ok hready
    let output := workspace.locate asset.scriptPath
    let placed := (workspace.withTree (withScript workspace.tree output text.code)).withNotices quiet
    have hplaced : placed.InMemory := hmemory
    obtain ⟨recorded, saves, hchange⟩ :=
      execute_change_of_inMemory hplaced asset.source asset.recordScript
    dsimp only [placed, output] at hchange
    dsimp only at hrun
    rw [hchange] at hrun
    rw [hrun]
    cases scriptOutcome workspace.tree (workspace.locate asset.scriptPath) text.code with
    | error fault => exact ⟨_, _, rfl, hmemory, .inl rfl, rfl⟩
    | ok outcome => exact ⟨_, _, rfl, ⟨saves, rfl⟩, .inr ⟨asset, rfl⟩, rfl⟩

end UxmlBindings.Workspace
