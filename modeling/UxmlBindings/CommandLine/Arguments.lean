import UxmlBindings.Binding.Shape
import UxmlBindings.Files.Pathname

/-!
# Arguments of the command line

The arguments name a command, with options for the project before it and options and paths of its
own after it. Arguments are read from left to right, and the first one that asks for help or for the
version, or that cannot be understood, decides. After two hyphens nothing is an option.
-/

namespace UxmlBindings.CommandLine

open Binding Files

/-- What the program is asked to do with a project. -/
inductive Command where
  | enable (path : String) (shape : Option Shape) (space outputDirectory : Option String)
  | disable (path : String)
  | generateBindings (paths : List String)
  | generateAllBindings
  | generateScript (path : String)
  | clearBindings (path : String)
  | clearAllBindings
  deriving DecidableEq, Repr

/-- A command with the project that it is for. -/
structure Invocation where
  project : Pathname := ⟨"."⟩
  settingsFile : Option Pathname := none
  command : Command
  deriving DecidableEq, Repr

/-- What the arguments ask for. -/
inductive Request where
  | run (invocation : Invocation)
  | version
  | help
  deriving DecidableEq, Repr

/-- Why arguments cannot be understood. -/
inductive UsageError where
  | unexpectedArgument (text : String)
  | repeatedOption (name : String)
  | missingValue (name : String)
  | emptyValue (name : String)
  | badShape (text : String)
  | missingPath
  | pathsWithAll
  | noCommand
  | unknownCommand (text : String)
  deriving DecidableEq, Repr

/-- The wording of a usage error. -/
def UsageError.message : UsageError → String
  | .unexpectedArgument text => "unexpected argument '" ++ text ++ "' found"
  | .repeatedOption name => "the argument '--" ++ name ++ "' cannot be used multiple times"
  | .missingValue name => "a value is required for '--" ++ name ++ "' but none was supplied"
  | .emptyValue name => "the value of '--" ++ name ++ "' must not be empty"
  | .badShape text => Shape.unknownMessage text
  | .missingPath => "a path is required but none was given"
  | .pathsWithAll => "the argument '--all' cannot be used with paths"
  | .noCommand => "a command is required but none was given"
  | .unknownCommand text => "unrecognized subcommand '" ++ text ++ "'"

/-- An option: its long name, a letter for it if it has one, and whether a value belongs to it. -/
structure OptionSpec where
  name : String
  letter : Option Char := none
  takesValue : Bool := true
  deriving DecidableEq, Repr

/-- What one argument, or an option with the argument after it, says. -/
inductive Item where
  | option (name value : String)
  | flag (name : String)
  | positional (text : String)
  /-- Everything that follows is positional. -/
  | onlyPositional
  deriving DecidableEq, Repr

/-- Whether an argument has the form of an option. A single hyphen has not. -/
def looksLikeOption (argument : String) : Bool :=
  argument.toList.head? == some '-' && argument.toList != ['-']

/-- Takes the value of an option from the next argument. -/
def valueFromNext (name : String) : List String → Except UsageError (Item × List String)
  | [] => .error (.missingValue name)
  | value :: rest =>
    if looksLikeOption value then .error (.missingValue name) else .ok (.option name value, rest)

/-- Reads an option by its long name, with the value that is attached to it, if there is one. -/
def readLong (specs : List OptionSpec) (argument : String) (name : List Char)
    (attached : Option (List Char)) (rest : List String) : Except UsageError (Item × List String) :=
  match specs.find? fun spec => spec.name.toList == name with
  | none => .error (.unexpectedArgument argument)
  | some spec =>
    match spec.takesValue, attached with
    | true, some value => .ok (.option spec.name (String.ofList value), rest)
    | true, none => valueFromNext spec.name rest
    | false, none => .ok (.flag spec.name, rest)
    | false, some _ => .error (.unexpectedArgument argument)

/-- Reads an option by its letter. What follows the letter is its value; an equals sign may stand
between them. -/
def readShort (specs : List OptionSpec) (argument : String) (letter : Char)
    (attached : List Char) (rest : List String) : Except UsageError (Item × List String) :=
  match specs.find? fun spec => spec.letter == some letter with
  | none => .error (.unexpectedArgument argument)
  | some spec =>
    if spec.takesValue then
      match attached with
      | [] => valueFromNext spec.name rest
      | '=' :: value => .ok (.option spec.name (String.ofList value), rest)
      | value => .ok (.option spec.name (String.ofList value), rest)
    else .ok (.flag spec.name, rest)

/-- Reads one item. -/
def readItem (specs : List OptionSpec) (argument : String) (rest : List String) :
    Except UsageError (Item × List String) :=
  match argument.toList with
  | ['-', '-'] => .ok (.onlyPositional, rest)
  | '-' :: '-' :: long =>
    match Text.cutAt ['='] long with
    | some (name, value) => readLong specs argument name (some value) rest
    | none => readLong specs argument long none rest
  | '-' :: letter :: attached => readShort specs argument letter attached rest
  | _ => .ok (.positional argument, rest)

theorem length_le_of_valueFromNext {name : String} {arguments rest : List String} {item : Item}
    (h : valueFromNext name arguments = .ok (item, rest)) : rest.length ≤ arguments.length := by
  unfold valueFromNext at h
  split at h
  · simp at h
  · split at h
    · simp at h
    · obtain ⟨_, rfl⟩ := Prod.mk.inj (Except.ok.inj h)
      simp

/-- An item takes up the argument that it starts with. -/
theorem length_le_of_readItem {specs : List OptionSpec} {argument : String}
    {arguments rest : List String} {item : Item}
    (h : readItem specs argument arguments = .ok (item, rest)) :
    rest.length ≤ arguments.length := by
  have done {found : Item} (h : Except.ok (found, arguments) = (.ok (item, rest) :
      Except UsageError (Item × List String))) : rest.length ≤ arguments.length := by
    obtain ⟨_, rfl⟩ := Prod.mk.inj (Except.ok.inj h)
    exact Nat.le_refl _
  have long {name : List Char} {attached : Option (List Char)}
      (h : readLong specs argument name attached arguments = .ok (item, rest)) :
      rest.length ≤ arguments.length := by
    unfold readLong at h
    split at h
    · simp at h
    · split at h
      · exact done h
      · exact length_le_of_valueFromNext h
      · exact done h
      · simp at h
  have short {letter : Char} {attached : List Char}
      (h : readShort specs argument letter attached arguments = .ok (item, rest)) :
      rest.length ≤ arguments.length := by
    unfold readShort at h
    split at h
    · simp at h
    · split at h
      · split at h
        · exact length_le_of_valueFromNext h
        · exact done h
        · exact done h
      · exact done h
  unfold readItem at h
  split at h
  · exact done h
  · split at h
    · exact long h
    · exact long h
  · exact short h
  · exact done h

/-- What the items after a command have said so far. -/
structure Collected where
  options : List (String × String) := []
  paths : List String := []
  deriving DecidableEq, Repr

/-- How a command reads its arguments. -/
structure CommandSpec where
  name : String
  options : List OptionSpec := []
  /-- The number of paths that it takes at most. -/
  maxPaths : Option Nat
  deriving DecidableEq, Repr

/-- The option that asks for help. -/
def helpSpec : OptionSpec := { name := "help", letter := some 'h', takesValue := false }

/-- The option that asks for the version. -/
def versionSpec : OptionSpec := { name := "version", letter := some 'V', takesValue := false }

/-- The options before the command. -/
def projectSpecs : List OptionSpec :=
  [{ name := "project", letter := some 'p' }, { name := "settings", letter := some 's' },
   helpSpec, versionSpec]

/-- The commands. -/
def commandSpecs : List CommandSpec :=
  [{ name := "enable"
     options := [{ name := "shape" }, { name := "namespace" }, { name := "output-directory" }]
     maxPaths := some 1 },
   { name := "disable", maxPaths := some 1 },
   { name := "generate-bindings"
     options := [{ name := "all", takesValue := false }]
     maxPaths := none },
   { name := "generate-script", maxPaths := some 1 },
   { name := "clear-bindings", maxPaths := some 1 },
   { name := "clear-all-bindings", maxPaths := some 0 }]

/-- Adds a path, if the command takes one more. -/
def Collected.addPath (collected : Collected) (spec : CommandSpec) (path : String) :
    Except UsageError Collected :=
  if spec.maxPaths.any fun most => most ≤ collected.paths.length then
    .error (.unexpectedArgument path)
  else .ok { collected with paths := collected.paths ++ [path] }

/-- Adds an option, if it was not given before. -/
def Collected.addOption (collected : Collected) (name value : String) :
    Except UsageError Collected :=
  if (collected.options.lookup name).isSome then .error (.repeatedOption name)
  else if name == "shape" && (Shape.ofText? value).isNone then .error (.badShape value)
  else if (name == "project" || name == "settings") && value.isEmpty then
    .error (.emptyValue name)
  else .ok { collected with options := collected.options ++ [(name, value)] }

/-- Reads the arguments after a command. Nothing is collected if help is asked for. -/
def collect (spec : CommandSpec) (collected : Collected) (arguments : List String) :
    Except UsageError (Option Collected) :=
  match arguments with
  | [] => .ok (some collected)
  | argument :: following =>
    match _read : readItem (helpSpec :: spec.options) argument following with
    | .error error => .error error
    | .ok (.option name value, rest) => do
      let collected ← collected.addOption name value
      collect spec collected rest
    | .ok (.flag name, rest) =>
      if name == "help" then .ok none
      else do
        let collected ← collected.addOption name ""
        collect spec collected rest
    | .ok (.positional path, rest) => do
      let collected ← collected.addPath spec path
      collect spec collected rest
    | .ok (.onlyPositional, rest) => do
      let collected ← rest.foldlM (fun collected path => collected.addPath spec path) collected
      return some collected
termination_by arguments.length
decreasing_by
  all_goals
    have := length_le_of_readItem _read
    simp only [List.length_cons]
    omega

/-- The only path of a command that needs one. -/
def onlyPath : List String → Except UsageError String
  | path :: _ => .ok path
  | [] => .error .missingPath

/-- The command of a name with what was collected for it. -/
def Collected.command (collected : Collected) (name : String) : Except UsageError Command :=
  match name with
  | "enable" => do
    let path ← onlyPath collected.paths
    return .enable path ((collected.options.lookup "shape").bind Shape.ofText?)
      (collected.options.lookup "namespace") (collected.options.lookup "output-directory")
  | "disable" => do return .disable (← onlyPath collected.paths)
  | "generate-bindings" =>
    if (collected.options.lookup "all").isSome then
      if collected.paths.isEmpty then .ok .generateAllBindings else .error .pathsWithAll
    else .ok (.generateBindings collected.paths)
  | "generate-script" => do return .generateScript (← onlyPath collected.paths)
  | "clear-bindings" => do return .clearBindings (← onlyPath collected.paths)
  | "clear-all-bindings" => .ok .clearAllBindings
  | _ => .error (.unknownCommand name)

/-- Reads a request for help on a command, or on the program. -/
def helpRequest : List String → Except UsageError Request
  | [] => .ok .help
  | [name] =>
    if name == "help" || commandSpecs.any (·.name == name) then .ok .help
    else .error (.unknownCommand name)
  | _ :: surplus :: _ => .error (.unknownCommand surplus)

/-- Reads a command and the arguments after it, for the project that the options name. -/
def readCommand (options : Collected) (name : String) (arguments : List String) :
    Except UsageError Request :=
  if name == "help" then helpRequest arguments
  else
    match commandSpecs.find? (·.name == name) with
    | none => .error (.unknownCommand name)
    | some spec => do
      match ← collect spec {} arguments with
      | none => return .help
      | some collected =>
        let command ← collected.command name
        return .run
          { project := ⟨(options.options.lookup "project").getD "."⟩
            settingsFile := (options.options.lookup "settings").map Pathname.mk
            command }

/-- Reads the options before the command, and the command. -/
def readRequest (options : Collected) (arguments : List String) : Except UsageError Request :=
  match arguments with
  | [] => .error .noCommand
  | argument :: following =>
    match _read : readItem projectSpecs argument following with
    | .error error => .error error
    | .ok (.option name value, rest) => do
      let options ← options.addOption name value
      readRequest options rest
    | .ok (.flag name, _) => .ok (if name == "version" then .version else .help)
    | .ok (.positional name, rest) => readCommand options name rest
    | .ok (.onlyPositional, rest) =>
      match rest with
      | [] => .error .noCommand
      | surplus :: _ => .error (.unexpectedArgument surplus)
termination_by arguments.length
decreasing_by
  have := length_le_of_readItem _read
  simp only [List.length_cons]
  omega

/-- Reads the arguments of the program. -/
def Request.ofArguments (arguments : List String) : Except UsageError Request :=
  readRequest {} arguments

end UxmlBindings.CommandLine
