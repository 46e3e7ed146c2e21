import UxmlBindings.Json.Printer
import UxmlBindings.Json.Reader
import UxmlBindings.Settings.Basic

/-!
# Settings documents

Settings are kept as a JSON document. A record may be written as an object, in which members that
are missing have their default and members that are unknown are skipped, or as an array of its
values in their fixed order, in which values at the end may be missing. A known member that occurs
twice, or a value of the wrong kind, makes the document unreadable.
-/

namespace UxmlBindings.Settings

open Binding Files Json

/-- The members of a record that a value writes, by name. -/
def recordMembers? (names : List String) : Value → Option (List (String × Value))
  | .object members => do
    let named ← members.mapM fun (key, value) => key.map fun key => (key, value)
    let known := named.filter fun member => names.contains member.1
    if (known.map (·.1)).Nodup then some known else none
  | .array items => if items.length ≤ names.length then some (names.zip items) else none
  | _ => none

/-- The value of a member, or its default if it is missing. -/
def memberOr {α : Type} (members : List (String × Value)) (name : String)
    (read? : Value → Option α) (default : α) : Option α :=
  match members.lookup name with
  | none => some default
  | some value => read? value

/-- The word of a choice, written as a string or as the only key of an object whose value is
null. -/
def choice? : Value → Option String
  | .string text => text
  | .object [(key, .null)] => key
  | _ => none

/-- Reads a shape. -/
def readShape? (value : Value) : Option Shape := do
  let word ← choice? value
  Shape.all.find? fun shape => shape.name == word

/-- The word of a policy. -/
def policyName : NamePolicy → String
  | .allow => "allow"
  | .reject => "reject"

/-- Reads a policy. -/
def readPolicy? (value : Value) : Option NamePolicy := do
  let word ← choice? value
  [NamePolicy.allow, .reject].find? fun policy => policyName policy == word

/-- Reads a path that may be absent. -/
def readOptionalPath? : Value → Option (Option Pathname)
  | .null => some none
  | value => value.text?.map fun text => some ⟨text⟩

/-- Reads a type table. The last type of a tag that occurs twice counts. -/
def readTypes? : Value → Option ElementTypes
  | .object members => do
    let entries ← members.mapM fun (key, value) => do
      let tag ← key
      let typeName ← value.text?
      return (tag, typeName)
    return ElementTypes.empty.extend entries
  | _ => none

/-- The value of a path that may be absent. -/
def optionalPathValue : Option Pathname → Value
  | none => .null
  | some path => .ofText path.text

/-- The value of a type table. -/
def typesValue (types : ElementTypes) : Value :=
  .ofMembers (types.toList.map fun (tag, typeName) => (tag, .ofText typeName))

end UxmlBindings.Settings

namespace UxmlBindings

open Files Json Settings

/-- The names of the members of the project settings. -/
def ProjectOptions.memberNames : List String :=
  ["enabled", "assets_root", "default_output_directory", "default_namespace", "duplicate_names",
   "custom_types"]

/-- Reads the settings of a project over other ones, which stay where a member is missing. -/
def ProjectOptions.overwrite? (defaults : ProjectOptions) (value : Value) :
    Option ProjectOptions := do
  let members ← recordMembers? ProjectOptions.memberNames value
  let enabled ← memberOr members "enabled" Value.boolean? defaults.enabled
  let assetsRoot ← memberOr members "assets_root" Value.text? defaults.assetsRoot
  let defaultOutputDirectory ←
    memberOr members "default_output_directory" Value.text? defaults.defaultOutputDirectory
  let defaultSpace ← memberOr members "default_namespace" Value.text? defaults.defaultSpace
  let duplicateNames ← memberOr members "duplicate_names" readPolicy? defaults.duplicateNames
  let customTypes ← memberOr members "custom_types" readTypes? defaults.customTypes
  return { enabled, assetsRoot, defaultOutputDirectory, defaultSpace, duplicateNames, customTypes }

/-- Reads the settings of a project. -/
def ProjectOptions.ofValue? (value : Value) : Option ProjectOptions :=
  ({} : ProjectOptions).overwrite? value

/-- The names of the members of the setting of a file. -/
def AssetOptions.memberNames : List String :=
  ["generation_shape", "output_directory", "namespace", "file_prefix", "file_suffix", "path",
   "last_bindings_output_path", "last_script_output_path"]

/-- Reads the setting of a file over another one, which stays where a member is missing. -/
def AssetOptions.overwrite? (defaults : AssetOptions) (value : Value) : Option AssetOptions := do
  let members ← recordMembers? AssetOptions.memberNames value
  let shape ← memberOr members "generation_shape" readShape? defaults.shape
  let outputDirectory ← memberOr members "output_directory" Value.text? defaults.outputDirectory
  let space ← memberOr members "namespace" Value.text? defaults.space
  let filePrefix ← memberOr members "file_prefix" Value.text? defaults.filePrefix
  let fileSuffix ← memberOr members "file_suffix" Value.text? defaults.fileSuffix
  let path ← memberOr members "path" Value.text? defaults.path
  let lastBindings ←
    memberOr members "last_bindings_output_path" readOptionalPath? defaults.lastBindings
  let lastScript ← memberOr members "last_script_output_path" readOptionalPath? defaults.lastScript
  return { shape, outputDirectory, space, filePrefix, fileSuffix, path, lastBindings, lastScript }

/-- Reads the setting of a file. -/
def AssetOptions.ofValue? (value : Value) : Option AssetOptions :=
  ({} : AssetOptions).overwrite? value

/-- Reads the settings of files. -/
def AssetOptions.listOfValue? : Value → Option (List AssetOptions)
  | .array items => items.mapM AssetOptions.ofValue?
  | _ => none

/-- Reads settings. -/
def Settings.ofValue? (value : Value) : Option Settings := do
  let members ← recordMembers? ["project", "files"] value
  let project ← memberOr members "project" ProjectOptions.ofValue? {}
  let files ← memberOr members "files" AssetOptions.listOfValue? []
  return { project, files }

/-- Reads the text of a settings document. -/
def Settings.ofText? (text : String) : Option Settings :=
  (Value.parse? text).bind Settings.ofValue?

/-- The value of project settings. -/
def ProjectOptions.toValue (project : ProjectOptions) : Value :=
  .ofMembers
    [("enabled", .boolean project.enabled),
     ("assets_root", .ofText project.assetsRoot),
     ("default_output_directory", .ofText project.defaultOutputDirectory),
     ("default_namespace", .ofText project.defaultSpace),
     ("duplicate_names", .ofText (policyName project.duplicateNames)),
     ("custom_types", typesValue project.customTypes)]

/-- The value of the setting of a file. -/
def AssetOptions.toValue (setting : AssetOptions) : Value :=
  .ofMembers
    [("generation_shape", .ofText setting.shape.name),
     ("output_directory", .ofText setting.outputDirectory),
     ("namespace", .ofText setting.space),
     ("file_prefix", .ofText setting.filePrefix),
     ("file_suffix", .ofText setting.fileSuffix),
     ("path", .ofText setting.path),
     ("last_bindings_output_path", optionalPathValue setting.lastBindings),
     ("last_script_output_path", optionalPathValue setting.lastScript)]

/-- The value of settings. -/
def Settings.toValue (settings : Settings) : Value :=
  .ofMembers
    [("project", settings.project.toValue),
     ("files", .array (settings.files.map AssetOptions.toValue))]

/-- The text of a settings document. -/
def Settings.toText (settings : Settings) : String :=
  settings.toValue.render ++ "\n"

end UxmlBindings
