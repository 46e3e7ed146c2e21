import UxmlBindings.Workspace.Error

/-!
# Notices

What operations on a project report while they run, each with its importance.
-/

namespace UxmlBindings.Workspace

open Binding Files

/-- The importance of a notice. -/
inductive Level where
  | information
  | warning
  | error
  deriving DecidableEq, Repr

/-- The name of a level. -/
def Level.name : Level → String
  | .information => "INFO"
  | .warning => "WARN"
  | .error => "ERROR"

/-- Something that happened during an operation. -/
inductive Notice where
  | enabled (key : String)
  | disabled (key : String)
  | unknownAsset (key : String)
  | nothingToClear (key : String)
  | generating (source : String)
  | generationWarning (source : String) (warning : Warning)
  | removedStale (path : Pathname)
  | staleRemains (failure : Failure)
  | wroteBindings (path : Pathname) (source : String)
  | keptScript (path : Pathname)
  | wroteScript (path : Pathname) (source : String)
  | assetFailed (source : String) (failure : Failure)
  | batchDone (succeeded failed : Nat)
  | removedBindings (path : Pathname)
  | fileRemains (path : Pathname) (fault : Fault)
  | directoryClosed (path : Pathname) (fault : Fault)
  | clearedAll (removed failed : Nat)
  | projectDisabled
  | wasNotEnabled (path : String)
  deriving DecidableEq, Repr

namespace Notice

/-- The importance of a notice. -/
def level : Notice → Level
  | unknownAsset _ | nothingToClear _ | generationWarning _ _ | staleRemains _ | projectDisabled
  | wasNotEnabled _ => .warning
  | assetFailed _ _ | fileRemains _ _ | directoryClosed _ _ => .error
  | _ => .information

/-- The wording of a notice. -/
def message : Notice → String
  | enabled key => "Enabled binding generation for " ++ key
  | disabled key => "Disabled binding generation for " ++ key
  | unknownAsset key => key ++ " has no binding settings; enable it first"
  | nothingToClear key => key ++ " has no binding settings; nothing to clear"
  | generating source => "Generating bindings for " ++ source
  | generationWarning source warning => source ++ ": " ++ warning.message
  | removedStale path => "Removed stale bindings " ++ path.text
  | staleRemains failure => "Failed to remove stale bindings: " ++ failure.message
  | wroteBindings path source => "Wrote bindings " ++ path.text ++ " for " ++ source
  | keptScript path => "Script " ++ path.text ++ " already exists; leaving it untouched"
  | wroteScript path source => "Wrote script " ++ path.text ++ " for " ++ source
  | assetFailed source failure =>
    "Failed to generate bindings for " ++ source ++ ": " ++ failure.message
  | batchDone succeeded failed =>
    "Generated bindings for " ++ toString succeeded ++ " assets, " ++ toString failed ++ " failed"
  | removedBindings path => "Removed bindings " ++ path.text
  | fileRemains path fault => "Failed to delete " ++ path.text ++ ": " ++ fault.message
  | directoryClosed path fault => "Failed to walk " ++ path.text ++ ": " ++ walkMessage path fault
  | clearedAll removed failed =>
    "Cleared " ++ toString removed ++ " generated files, " ++ toString failed ++ " failures"
  | projectDisabled => "Binding generation is disabled for this project"
  | wasNotEnabled path => path ++ " was not enabled"

/-- A notice as a line of a log. -/
def line (notice : Notice) : String :=
  notice.level.name ++ " " ++ notice.message

end Notice

end UxmlBindings.Workspace
