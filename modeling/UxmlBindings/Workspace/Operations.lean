import UxmlBindings.Workspace.State

/-!
# Operations on a project

Files are taken into a project and out of it, their settings are changed, and their bindings and
scripts are generated and removed. Bindings are written anew on every run, and the file of an
earlier run is removed when the output path has changed. A script is written only where nothing can
be reached, to spare scripts that were written by hand.
-/

namespace UxmlBindings.Workspace

open Binding Files Settings

/-- Whether a run wrote its file. -/
inductive Outcome where
  | written
  | skipped
  deriving DecidableEq, Repr

/-- What came of generating one file. -/
structure Report where
  source : String
  className : String
  output : Pathname
  outcome : Outcome
  warnings : List Warning
  deriving DecidableEq, Repr

/-- What came of generating the bindings of all files. -/
structure BatchResult where
  succeeded : List Report := []
  failed : List (String × Failure) := []
  deriving DecidableEq, Repr

/-- Whether nothing failed. -/
def BatchResult.isClean (report : BatchResult) : Bool :=
  report.failed.isEmpty

/-- What came of removing all bindings. -/
structure RemovalReport where
  removed : List Pathname := []
  failures : List Failure := []
  deriving DecidableEq, Repr

/-- Fails if the project takes no part in generation. -/
def requireEnabled : WorkspaceM Unit := do
  let workspace ← get
  if workspace.project.enabled then return ()
  else
    notify .projectDisabled
    throw .disabled

/-- Takes a file into the project with default settings, if it is not there already. -/
def enable (path : String) : WorkspaceM AssetOptions := do
  let workspace ← get
  let key := Settings.keyOf path
  match workspace.settings.find? key with
  | some setting => return setting
  | none =>
    let setting := AssetOptions.initial key workspace.project
    setSettings (workspace.settings.add setting)
    save
    notify (.enabled key)
    return setting

/-- Takes a file out of the project, and yields the setting that it had. -/
def disable (path : String) : WorkspaceM (Option AssetOptions) := do
  let workspace ← get
  let key := Settings.keyOf path
  match workspace.settings.take key with
  | (none, _) => return none
  | (some setting, rest) =>
    setSettings rest
    save
    notify (.disabled key)
    return some setting

/-- Changes the setting of a file. -/
def change (path : String) (change : AssetOptions → AssetOptions) : WorkspaceM Unit := do
  let workspace ← get
  let key := Settings.keyOf path
  match workspace.settings.find? key with
  | none => throw (.notConfigured key)
  | some _ =>
    setSettings (workspace.settings.change key change)
    save

/-- Reads the markup file of a setting. -/
def readAsset (setting : AssetOptions) : WorkspaceM Asset := do
  let workspace ← get
  let source := workspace.locate ⟨setting.path⟩
  match workspace.tree.readText source with
  | .error fault => throw (.file source fault)
  | .ok markup =>
    match Asset.read markup workspace.project setting with
    | .error error => throw (.document setting.path error)
    | .ok asset => return asset

/-- Reads a file of the project. -/
def openAsset (path : String) : WorkspaceM Asset := do
  let workspace ← get
  let key := Settings.keyOf path
  match workspace.settings.find? key with
  | none =>
    notify (.unknownAsset key)
    throw (.notConfigured key)
  | some setting => readAsset setting

/-- Yields what was generated, or fails with its error. -/
def generated {α : Type} : Except GenerationError α → WorkspaceM α
  | .ok value => return value
  | .error error => throw (.generation error)

section Systems

variable (system : System)

/-- Removes the bindings of an earlier run, if they were written somewhere else. That they cannot be
removed is no failure of the run. -/
def removeStaleOn (previous : Option Pathname) (current : Pathname) : WorkspaceM Unit := do
  match previous with
  | none => return ()
  | some previous =>
    if previous.same current then return ()
    else
      let workspace ← get
      let stale := workspace.locate previous
      match ← attempt (removeDescribedOn system stale) with
      | .ok true => notify (.removedStale stale)
      | .ok false => return ()
      | .error failure => notify (.staleRemains failure)

/-- Generates the bindings of a file. -/
def writeBindingsOn (path : String) : WorkspaceM Report := do
  requireEnabled
  let asset ← openAsset path
  notify (.generating asset.source)
  let workspace ← get
  let source ← generated
    (Binding.documentBindings workspace.elementTypes workspace.project.duplicateNames asset.root
      asset.setting.shape asset.assetName)
  source.warnings.forM fun warning => notify (.generationWarning asset.source warning)
  let output := workspace.locate asset.bindingsPath
  writeFileOn system output source.code
  removeStaleOn system asset.setting.lastBindings asset.bindingsPath
  change asset.source fun setting => { setting with lastBindings := some asset.bindingsPath }
  notify (.wroteBindings output asset.source)
  return {
    source := asset.source
    className := source.className
    output
    outcome := .written
    warnings := source.warnings }

/-- Writes a script unless something exists where it belongs. -/
def createScriptOn (output : Pathname) (source code : String) : WorkspaceM Outcome := do
  let workspace ← get
  if workspace.tree.holds output then
    notify (.keptScript output)
    return .skipped
  else
    writeFileOn system output code
    notify (.wroteScript output source)
    return .written

/-- Generates the script of a file, if there is none yet. -/
def writeScriptOn (path : String) : WorkspaceM Report := do
  requireEnabled
  let asset ← openAsset path
  let source ← generated (Binding.assetScript asset.setting.shape asset.assetName)
  let workspace ← get
  let output := workspace.locate asset.scriptPath
  let outcome ← createScriptOn system output asset.source source.code
  change asset.source fun setting => { setting with lastScript := some asset.scriptPath }
  return {
    source := asset.source
    className := source.className
    output
    outcome
    warnings := source.warnings }

end Systems

/-- Removes the bindings of an earlier run, if they were written somewhere else. That they cannot be
removed is no failure of the run. -/
def removeStale (previous : Option Pathname) (current : Pathname) : WorkspaceM Unit :=
  removeStaleOn .plain previous current

/-- Generates the bindings of a file. -/
def writeBindings (path : String) : WorkspaceM Report :=
  writeBindingsOn .plain path

/-- Generates the script of a file, if there is none yet. -/
def writeScript (path : String) : WorkspaceM Report :=
  writeScriptOn .plain path

/-- Generates the bindings of the given files, one after the other. A failure of one of them does
not keep the others from being generated. -/
def writeEach : List String → WorkspaceM BatchResult
  | [] => return {}
  | path :: rest => do
    match ← attempt (writeBindings path) with
    | .ok report =>
      let others ← writeEach rest
      return { others with succeeded := report :: others.succeeded }
    | .error failure =>
      notify (.assetFailed path failure)
      let others ← writeEach rest
      return { others with failed := (path, failure) :: others.failed }

/-- Generates the bindings of all files of the project. -/
def writeAllBindings : WorkspaceM BatchResult := do
  requireEnabled
  let workspace ← get
  let report ← writeEach (workspace.settings.files.map (·.path))
  notify (.batchDone report.succeeded.length report.failed.length)
  return report

/-- Removes the bindings that were last written for a file, and yields their path if they were
there. -/
def removeBindings (path : String) : WorkspaceM (Option Pathname) := do
  let workspace ← get
  let key := Settings.keyOf path
  match workspace.settings.find? key with
  | none =>
    notify (.nothingToClear key)
    throw (.notConfigured key)
  | some setting =>
    match setting.lastBindings with
    | none => return none
    | some last =>
      let target := workspace.locate last
      let removed ← removeDescribed target
      change key fun setting => { setting with lastBindings := none }
      if removed then
        notify (.removedBindings target)
        return some target
      else return none

/-- Paths in order, where of paths with the same components only the last one is kept. -/
def distinctPaths : List Pathname → List Pathname
  | [] => []
  | [only] => [only]
  | first :: second :: rest =>
    if first.same second then distinctPaths (second :: rest)
    else first :: distinctPaths (second :: rest)

/-- The output directories of the files of a project, without repetitions. -/
def bindingsRoots (workspace : Workspace) : List Pathname :=
  let roots := workspace.settings.files.map fun setting =>
    workspace.locate (targetDirectory workspace.project setting false)
  distinctPaths (roots.mergeSort Pathname.notAfter)

/-- Removes a file and records whether that was possible. -/
def removeListed (report : RemovalReport) (path : Pathname) : WorkspaceM RemovalReport := do
  let workspace ← get
  match workspace.tree.removeFile path with
  | .ok tree =>
    setTree tree
    return { report with removed := report.removed ++ [path] }
  | .error fault =>
    notify (.fileRemains path fault)
    return { report with failures := report.failures ++ [.file path fault] }

/-- Removes what a walk has come upon if it is a bindings file. A directory into which the walk
could not go is recorded. -/
def removeSighted (report : RemovalReport) : FileTree.Sighting → WorkspaceM RemovalReport
  | .file path => if isBindingsPath path then removeListed report path else return report
  | .closed directory fault => do
    notify (.directoryClosed directory fault)
    return { report with failures := report.failures ++ [.walk directory fault] }

/-- Removes the bindings files below a directory. -/
def removeBelow (report : RemovalReport) (directory : Pathname) : WorkspaceM RemovalReport := do
  let workspace ← get
  if workspace.tree.holdsDirectory directory then
    (workspace.tree.walk directory).foldlM removeSighted report
  else return report

/-- The settings of files without the paths of bindings that do not exist. -/
def forgetMissing (workspace : Workspace) (files : List AssetOptions) : List AssetOptions :=
  files.map fun setting =>
    match setting.lastBindings with
    | none => setting
    | some last =>
      if workspace.tree.holds (workspace.locate last) then setting
      else { setting with lastBindings := none }

/-- Removes all bindings files below the output directories of the project, whether or not they were
written for a file that is still there. -/
def removeAllBindings : WorkspaceM RemovalReport := do
  let workspace ← get
  let report ← (bindingsRoots workspace).foldlM removeBelow {}
  let workspace ← get
  let files := forgetMissing workspace workspace.settings.files
  if files != workspace.settings.files then
    setSettings { workspace.settings with files }
    save
  notify (.clearedAll report.removed.length report.failures.length)
  return report

end UxmlBindings.Workspace
