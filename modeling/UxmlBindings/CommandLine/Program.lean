import UxmlBindings.CommandLine.Arguments
import UxmlBindings.Workspace.Operations

/-!
# The program

A run of the program opens the settings of a project, carries out one command and says what it did.
The run is a function of the arguments and the files; it yields the output, how it ended, the files
afterwards and the notices on the way.
-/

namespace UxmlBindings.CommandLine

open Binding Files Settings Workspace

/-- The settings file of a project, unless another one is named. -/
def standardSettingsFile : Pathname := ⟨"ProjectSettings/MarkbindSettings.json"⟩

/-- What is printed when the version is asked for. -/
def versionText : String := "markbind 0.1.0\n"

/-- What is printed when help is asked for. -/
def helpText : String :=
  "Typed C# bindings for UXML documents\n\n" ++
  "Usage: markbind [OPTIONS] <COMMAND>\n\n" ++
  "Commands:\n" ++
  "  enable              take a file into the project\n" ++
  "  disable             take a file out of the project\n" ++
  "  generate-bindings   generate the bindings of files\n" ++
  "  generate-script     generate the script of a file\n" ++
  "  clear-bindings      remove the bindings of a file\n" ++
  "  clear-all-bindings  remove all bindings of the project\n" ++
  "  help                print this text\n\n" ++
  "Options:\n" ++
  "  -p, --project <PROJECT>    the project directory\n" ++
  "  -s, --settings <SETTINGS>  the settings file\n" ++
  "  -h, --help                 print this text\n" ++
  "  -V, --version              print the version\n"

/-- Why a run failed. -/
inductive RunError where
  | openingSettings (path : Pathname) (error : StoreFault)
  | operation (failure : Failure)
  | noAsset
  | assetsFailed (count : Nat)
  | filesRemain (count : Nat)
  deriving DecidableEq, Repr

/-- The wording of an error. -/
def RunError.message : RunError → String
  | .openingSettings path _ => "opening settings " ++ path.text
  | .operation failure => failure.message
  | .noAsset => "no asset given; pass one or more paths or --all"
  | .assetsFailed count => toString count ++ " assets failed to generate"
  | .filesRemain count => toString count ++ " files could not be deleted"

/-- How a run ended. -/
inductive Ending where
  | done
  | failed (error : RunError)
  | misused (error : UsageError)
  deriving DecidableEq, Repr

/-- The exit status of an ending. -/
def Ending.status : Ending → Nat
  | .done => 0
  | .failed _ => 1
  | .misused _ => 2

/-- What is said on the error output. -/
def Ending.errorText : Ending → String
  | .done => ""
  | .failed error => "Error: " ++ error.message ++ "\n"
  | .misused error => "error: " ++ error.message ++ "\n"

/-- The result of a run. -/
structure Run where
  output : String := ""
  ending : Ending := .done
  tree : FileTree
  notices : List Notice := []

/-- What a command prints and how it ends, provided that no operation fails. -/
abbrev Printed := String × Ending

/-- A path on a line of its own. -/
def pathLine (path : Pathname) : String :=
  path.text ++ "\n"

/-- The setting of a file with the options of the enable command. -/
def applyOptions (shape : Option Shape) (space outputDirectory : Option String)
    (setting : AssetOptions) : AssetOptions :=
  { setting with
    shape := shape.getD setting.shape
    space := space.getD setting.space
    outputDirectory := outputDirectory.getD setting.outputDirectory }

/-- The ending of a run in which some files failed. -/
def endingOfFailures (count : Nat) : Ending :=
  if count = 0 then .done else .failed (.assetsFailed count)

/-- What the report on a script prints. -/
def scriptText (report : Report) : String :=
  match report.outcome with
  | .written => pathLine report.output
  | .skipped => report.output.text ++ " already exists\n"

/-- Carries out a command. -/
def Command.perform : Command → WorkspaceM Printed
  | .enable path shape space outputDirectory => do
    let _ ← Workspace.enable path
    Workspace.change path (applyOptions shape space outputDirectory)
    return ("", .done)
  | .disable path => do
    if (← Workspace.disable path).isNone then Workspace.notify (.wasNotEnabled path)
    return ("", .done)
  | .generateAllBindings => do
    let report ← Workspace.writeAllBindings
    return ("", endingOfFailures report.failed.length)
  | .generateBindings [] => return ("", .failed .noAsset)
  | .generateBindings paths => do
    let report ← Workspace.writeEach paths
    return ("", endingOfFailures report.failed.length)
  | .generateScript path => do
    let report ← Workspace.writeScript path
    return (scriptText report, .done)
  | .clearBindings path => do
    match ← Workspace.removeBindings path with
    | some removed => return (pathLine removed, .done)
    | none => return ("", .done)
  | .clearAllBindings => do
    let report ← Workspace.removeAllBindings
    let output := String.join (report.removed.map pathLine)
    if report.failures.isEmpty then return (output, .done)
    else return (output, .failed (.filesRemain report.failures.length))

/-- The settings file of an invocation. -/
def Invocation.settingsPath (invocation : Invocation) : Pathname :=
  invocation.settingsFile.getD (invocation.project.join standardSettingsFile)

/-- Carries out an invocation on files. -/
def Invocation.perform (invocation : Invocation) (tree : FileTree) : Run :=
  match Store.load tree invocation.settingsPath with
  | .error error =>
    { ending := .failed (.openingSettings invocation.settingsPath error), tree }
  | .ok store =>
    let workspace : Workspace := { tree, store, root := invocation.project }
    match invocation.command.perform.execute workspace with
    | (.ok (output, ending), workspace) =>
      { output, ending, tree := workspace.tree, notices := workspace.notices }
    | (.error failure, workspace) =>
      { ending := .failed (.operation failure), tree := workspace.tree,
        notices := workspace.notices }

/-- Runs the program with arguments on files. -/
def run (arguments : List String) (tree : FileTree) : Run :=
  match Request.ofArguments arguments with
  | .error error => { ending := .misused error, tree }
  | .ok .version => { output := versionText, tree }
  | .ok .help => { output := helpText, tree }
  | .ok (.run invocation) => invocation.perform tree

end UxmlBindings.CommandLine
