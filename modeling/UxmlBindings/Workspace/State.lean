import UxmlBindings.Files.System
import UxmlBindings.Workspace.Asset
import UxmlBindings.Workspace.Notice

/-!
# Workspaces

A workspace is a project directory with its settings: the files, the settings store, the path of the
project, the types that were added for the session, and the notices so far. Operations are actions,
which change the workspace and yield a value or a failure; what was changed before a failure stays
changed. Actions that write or remove files are given for any system, and for a plain one.
-/

namespace UxmlBindings

open Binding Files Workspace

/-- A project directory with its settings. -/
structure Workspace where
  tree : FileTree
  store : Settings.Store
  root : Pathname
  sessionTypes : ElementTypes := .empty
  notices : List Notice := []

/-- A change of a workspace that yields a value or fails. -/
abbrev WorkspaceM (α : Type) := ExceptT Failure (StateM Workspace) α

/-- Runs an action on a workspace. -/
def WorkspaceM.execute {α : Type} (action : WorkspaceM α) (workspace : Workspace) :
    Except Failure α × Workspace :=
  action workspace

namespace Workspace

/-- The settings in use. -/
def settings (workspace : Workspace) : Settings :=
  workspace.store.settings

/-- The settings of the project in use. -/
def project (workspace : Workspace) : ProjectOptions :=
  workspace.settings.project

/-- The workspace with other settings, which are not saved. -/
def withSettings (workspace : Workspace) (settings : Settings) : Workspace :=
  { workspace with store := { workspace.store with settings } }

/-- The workspace with a type for a tag, which replaces an earlier one of the session. -/
def withType (workspace : Workspace) (tag typeName : String) : Workspace :=
  { workspace with sessionTypes := workspace.sessionTypes.insert tag typeName }

/-- The workspace with types for tags, given one after the other. -/
def withTypes (workspace : Workspace) (entries : List (String × String)) : Workspace :=
  entries.foldl (fun workspace entry => workspace.withType entry.1 entry.2) workspace

/-- The types of elements: the built-in ones, over them those of the project and then those of the
session. -/
def elementTypes (workspace : Workspace) : ElementTypes :=
  ElementTypes.standard.extend (workspace.project.customTypes.toList ++ workspace.sessionTypes.toList)

/-- The path of something in the project directory. -/
def locate (workspace : Workspace) (path : Pathname) : Pathname :=
  workspace.root.join path

/-- Adds a notice. -/
def notify (notice : Notice) : WorkspaceM Unit :=
  modify fun workspace => { workspace with notices := workspace.notices ++ [notice] }

/-- Replaces the settings, without saving them. -/
def setSettings (settings : Settings) : WorkspaceM Unit :=
  modify (·.withSettings settings)

/-- Replaces the files. -/
def setTree (tree : FileTree) : WorkspaceM Unit :=
  modify fun workspace => { workspace with tree }

/-- Saves the settings. -/
def save : WorkspaceM Unit := do
  let workspace ← get
  let (saved, store, tree) := workspace.store.save workspace.tree
  set { workspace with store, tree }
  match saved with
  | .ok () => return ()
  | .error error => throw (.settings error)

section Systems

variable (system : System)

/-- Writes a file and makes the directories above it. -/
def writeFileOn (path : Pathname) (text : String) : WorkspaceM Unit := do
  let workspace ← get
  let (written, tree) := system.writeWithParents workspace.tree path text
  setTree tree
  match written with
  | .ok () => return ()
  | .error (path, fault) => throw (.file path fault)

/-- Removes a file if it is there, and tells whether it was. -/
def removeIfThereOn (path : Pathname) : WorkspaceM Bool := do
  let workspace ← get
  let (removed, tree) := system.removeFile workspace.tree path
  setTree tree
  match removed with
  | .ok () => return true
  | .error .notFound => return false
  | .error fault => throw (.file path fault)

/-- Removes a file and the file that describes it, and tells whether the file itself was there. -/
def removeDescribedOn (path : Pathname) : WorkspaceM Bool := do
  let _ ← removeIfThereOn system (path.extend metaEnding)
  removeIfThereOn system path

end Systems

/-- Writes a file and makes the directories above it. -/
def writeFile (path : Pathname) (text : String) : WorkspaceM Unit :=
  writeFileOn .plain path text

/-- Removes a file if it is there, and tells whether it was. -/
def removeIfThere (path : Pathname) : WorkspaceM Bool :=
  removeIfThereOn .plain path

/-- Removes a file and the file that describes it, and tells whether the file itself was there. -/
def removeDescribed (path : Pathname) : WorkspaceM Bool :=
  removeDescribedOn .plain path

/-- The outcome of an action as a value; what the action changed stays changed. -/
def attempt {α : Type} (action : WorkspaceM α) : WorkspaceM (Except Failure α) :=
  fun workspace =>
    let (outcome, workspace) := action.execute workspace
    (.ok outcome, workspace)

end Workspace

end UxmlBindings
