import UxmlBindings.Binding.Assembly
import UxmlBindings.Files.Pathname

/-!
# Settings

A project has settings of its own and one setting for each markup file that takes part in
generation. Settings of files are found by the path of the file, and keep the order in which they
were added. Adding a setting for a path that is already there replaces it in its place.
-/

namespace UxmlBindings

open Binding Files

/-- The settings of a project. Output directories lie below the assets root. -/
structure ProjectOptions where
  enabled : Bool := true
  assetsRoot : String := "Assets"
  defaultOutputDirectory : String := "Markbind"
  defaultSpace : String := ""
  duplicateNames : NamePolicy := .allow
  customTypes : ElementTypes := .empty
  deriving DecidableEq

/-- The setting of one markup file, with the paths to which its files were last written. -/
structure AssetOptions where
  shape : Shape := .document
  outputDirectory : String := ""
  space : String := ""
  filePrefix : String := ""
  fileSuffix : String := ""
  path : String := ""
  lastBindings : Option Pathname := none
  lastScript : Option Pathname := none
  deriving DecidableEq, Repr

/-- The setting of a file that is taken into a project. -/
def AssetOptions.initial (path : String) (project : ProjectOptions) : AssetOptions where
  outputDirectory := project.defaultOutputDirectory
  space := project.defaultSpace
  path := path

/-- The settings of a project and of its files. -/
structure Settings where
  project : ProjectOptions := {}
  files : List AssetOptions := []
  deriving DecidableEq

namespace Settings

/-- Replaces the first setting for a path, or adds the setting at the end. -/
def putSetting (setting : AssetOptions) : List AssetOptions → List AssetOptions
  | [] => [setting]
  | first :: rest =>
    if first.path = setting.path then setting :: rest else first :: putSetting setting rest

/-- Changes the first setting for a path. -/
def changeSetting (path : String) (change : AssetOptions → AssetOptions) :
    List AssetOptions → List AssetOptions
  | [] => []
  | first :: rest =>
    if first.path = path then change first :: rest else first :: changeSetting path change rest

/-- The setting for a path. -/
def find? (settings : Settings) (path : String) : Option AssetOptions :=
  settings.files.find? (·.path == path)

/-- The settings with a setting for its path. -/
def add (settings : Settings) (setting : AssetOptions) : Settings :=
  { settings with files := putSetting setting settings.files }

/-- The settings with the setting for a path changed. -/
def change (settings : Settings) (path : String) (change : AssetOptions → AssetOptions) : Settings :=
  { settings with files := changeSetting path change settings.files }

/-- The settings without the setting for a path. -/
def remove (settings : Settings) (path : String) : Settings :=
  { settings with files := settings.files.eraseP (·.path == path) }

/-- The setting for a path, with the settings that remain when it is taken out of its place. -/
def take (settings : Settings) (path : String) : Option AssetOptions × Settings :=
  match settings.files.findIdx? (·.path == path) with
  | none => (none, settings)
  | some place =>
    (settings.files[place]?, { settings with files := settings.files.eraseIdx place })

/-- The path of a markup file in the form under which it is looked up: with forward slashes, and
without one leading step into the directory itself. -/
def keyOf (path : String) : String :=
  match path.toList.map fun c => if c = '\\' then '/' else c with
  | '.' :: '/' :: rest => String.ofList rest
  | chars => String.ofList chars

/-- What was added is found. -/
@[simp] theorem find?_add (settings : Settings) (setting : AssetOptions) :
    (settings.add setting).find? setting.path = some setting := by
  obtain ⟨project, files⟩ := settings
  simp only [find?, add]
  induction files with
  | nil => simp [putSetting]
  | cons first rest ih =>
    simp only [putSetting]
    split
    · simp
    · rename_i other
      simp [other, ih]

/-- Adding a setting changes nothing for other paths. -/
theorem find?_add_of_ne (settings : Settings) (setting : AssetOptions) {path : String}
    (h : setting.path ≠ path) : (settings.add setting).find? path = settings.find? path := by
  obtain ⟨project, files⟩ := settings
  simp only [find?, add]
  induction files with
  | nil => simp [putSetting, h]
  | cons first rest ih =>
    simp only [putSetting]
    split
    · rename_i same
      simp [same, h]
    · simp only [List.find?_cons, ih]

/-- What is taken out of the settings is the setting that is found, and the others remain. -/
theorem take_eq (settings : Settings) (path : String) :
    settings.take path = (settings.find? path, settings.remove path) := by
  rw [take, find?, remove, List.find?_eq_bind_findIdx?_getElem?, List.eraseP_eq_eraseIdx]
  cases settings.files.findIdx? (·.path == path) <;> rfl

end Settings

end UxmlBindings
