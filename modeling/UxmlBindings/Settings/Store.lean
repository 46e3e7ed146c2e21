import UxmlBindings.Files.FileTree
import UxmlBindings.Settings.Document

/-!
# Settings stores

A store holds settings and knows where they are kept: nowhere but in memory, where the saves are
counted, or in a file. A store that is opened on a missing file starts with the default settings.
Saving can fail; the settings in memory stay as they are then.
-/

namespace UxmlBindings.Settings

open Files

/-- Where settings are kept. -/
inductive Backing where
  | memory (saves : Nat)
  | file (path : Pathname)
  deriving DecidableEq, Repr

/-- Settings and where they are kept. -/
structure Store where
  settings : Settings
  backing : Backing
  deriving DecidableEq

/-- Why settings could not be read or saved. -/
inductive StoreFault where
  | unreachable (path : Pathname) (fault : Fault)
  | malformed
  deriving DecidableEq, Repr

/-- The wording of an error. -/
def StoreFault.message : StoreFault → String
  | .unreachable path fault => "settings IO error at '" ++ path.text ++ "': " ++ fault.message
  | .malformed => "settings format error"

namespace Store

/-- A store in memory. -/
def inMemory (settings : Settings) : Store where
  settings := settings
  backing := .memory 0

/-- The number of saves of a store in memory. -/
def saves? (store : Store) : Option Nat :=
  match store.backing with
  | .memory saves => some saves
  | .file _ => none

/-- Opens the store that is kept in a file. -/
def load (tree : FileTree) (path : Pathname) : Except StoreFault Store :=
  match tree.readText path with
  | .error .notFound => .ok { settings := {}, backing := .file path }
  | .error fault => .error (.unreachable path fault)
  | .ok text =>
    match Settings.ofText? text with
    | some settings => .ok { settings, backing := .file path }
    | none => .error .malformed

/-- Makes the directory of a settings file. A file that needs no directory has none. -/
def makeParent (tree : FileTree) (path : Pathname) : Except Fault Unit × FileTree :=
  match path.parent? with
  | none => (.ok (), tree)
  | some parent => if parent.text.isEmpty then (.ok (), tree) else tree.makeDirectories parent

/-- Saves the settings. -/
def save (store : Store) (tree : FileTree) : Except StoreFault Unit × Store × FileTree :=
  match store.backing with
  | .memory saves => (.ok (), { store with backing := .memory (saves + 1) }, tree)
  | .file path =>
    match makeParent tree path with
    | (.error fault, tree) => (.error (.unreachable path fault), store, tree)
    | (.ok (), tree) =>
      match tree.write path (.text store.settings.toText) with
      | .error fault => (.error (.unreachable path fault), store, tree)
      | .ok tree => (.ok (), store, tree)

end Store

end UxmlBindings.Settings
