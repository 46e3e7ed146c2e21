import UxmlBindings.Files.FileTree
import UxmlBindings.Settings.Basic

/-!
# Assets of a project

An asset is a markup file under management. Its document and its setting decide where its bindings
and its script are written: in the output directory below the assets root, in a directory of its own
if the document is meant for the editor.
-/

namespace UxmlBindings.Workspace

open Binding Files Markup Settings

/-- The attribute of a root element that marks a document as meant for the editor. -/
def editorKey : String := "editor-extension-mode"

/-- The directory for files that are meant for the editor. -/
def editorFolder : Pathname := ⟨"Editor"⟩

/-- What the names of bindings files end in. -/
def bindingsEnding : String := ".g.cs"

/-- What the names of scripts end in. -/
def scriptEnding : String := ".cs"

/-- What is added to the name of a file for the file that describes it. -/
def metaEnding : String := ".meta"

/-- The directory of generated files, relative to the project. -/
def targetDirectory (project : ProjectOptions) (setting : AssetOptions) (editorOnly : Bool) :
    Pathname :=
  let directory := Pathname.join ⟨project.assetsRoot⟩ ⟨setting.outputDirectory⟩
  if editorOnly then directory.join editorFolder else directory

/-- Whether a name ends in an ending. -/
def endsIn (name ending : String) : Bool :=
  ending.toList.isSuffixOf name.toList

/-- Whether a path is that of a bindings file, or of the file that describes one. -/
def isBindingsPath (path : Pathname) : Bool :=
  match path.lastName? with
  | none => false
  | some name => endsIn name bindingsEnding || endsIn name (bindingsEnding ++ metaEnding)

/-- An asset that was read. -/
structure Asset where
  name : String
  root : Element
  editorOnly : Bool
  setting : AssetOptions
  bindingsPath : Pathname
  scriptPath : Pathname
  deriving DecidableEq

namespace Asset

/-- The path of the markup file. -/
def source (asset : Asset) : String :=
  asset.setting.path

/-- The asset of a markup text. -/
def read (markup : String) (project : ProjectOptions) (setting : AssetOptions) :
    Except DocumentError Asset := do
  let root ← Element.parse markup
  let editorOnly ← root.flag editorKey
  let name := (Pathname.stem? ⟨setting.path⟩).getD ""
  let directory := targetDirectory project setting editorOnly
  let stem := setting.filePrefix ++ name ++ setting.fileSuffix
  return {
    name, root, editorOnly, setting
    bindingsPath := directory.join ⟨stem ++ bindingsEnding⟩
    scriptPath := directory.join ⟨stem ++ scriptEnding⟩ }

/-- The names from which the classes of the asset are named. -/
def assetName (asset : Asset) : AssetName where
  stem := asset.name
  space := asset.setting.space
  filePrefix := asset.setting.filePrefix
  fileSuffix := asset.setting.fileSuffix

end Asset

end UxmlBindings.Workspace
