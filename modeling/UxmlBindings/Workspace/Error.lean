import UxmlBindings.Settings.Store

/-!
# Errors of project operations
-/

namespace UxmlBindings.Workspace

open Binding Files Markup Settings

/-- The wording of a fault that ends a walk at a directory. -/
def walkMessage (directory : Pathname) (fault : Fault) : String :=
  "IO error for operation on " ++ directory.text ++ ": " ++ fault.message

/-- Why a project operation failed. -/
inductive Failure where
  /-- The markup file with the given path is no document. -/
  | document (path : String) (error : DocumentError)
  | generation (error : GenerationError)
  | notConfigured (path : String)
  | disabled
  | file (path : Pathname) (fault : Fault)
  /-- A walk could not go into a directory. -/
  | walk (directory : Pathname) (fault : Fault)
  | settings (error : StoreFault)
  deriving DecidableEq, Repr

/-- The wording of a failure. -/
def Failure.message : Failure → String
  | .document path error => "failed to parse '" ++ path ++ "': " ++ error.message
  | .generation error => "generation error: " ++ error.message
  | .notConfigured path =>
    "cannot find '" ++ path ++
      "' in the configuration; enable binding generation for this file first"
  | .disabled => "binding generation is disabled in the project settings"
  | .file path fault => "IO error at '" ++ path.text ++ "': " ++ fault.message
  | .walk directory fault =>
    "IO error at '" ++ directory.text ++ "': " ++ walkMessage directory fault
  | .settings error => "settings error: " ++ error.message

end UxmlBindings.Workspace
