import UxmlBindings.CommandLine.Program

/-!
# The command line

The program looks at the project directory, carries out its run on what it has seen, and then makes
the same changes to the files. Of all files below the project only those that a run can read are
read: the settings file and the markup files that the settings name.

So changes reach the system only after the run. If the system refuses one of them, the program makes no
further ones and ends with this error, whatever the run has come to. A file that the system does not let
be read counts as one that holds no text.
-/

namespace UxmlBindings.CommandLine

open Files Settings Workspace

/-- The absolute path of a location. -/
def absoluteText (location : Location) : String :=
  "/" ++ String.intercalate "/" location

/-- Puts the directories above a location into a tree. -/
def withAncestors (tree : FileTree) (location : Location) : FileTree :=
  (List.range location.length).foldl
    (fun tree length => if length = 0 then tree else tree.put (location.take length) .directory)
    tree

/-- The entries of a directory, if the system lets it be listed. -/
def children? (entry : IO.FS.DirEntry) : IO (Option (Array IO.FS.DirEntry)) := do
  try
    return some (← entry.path.readDir)
  catch _ => return none

/-- Puts what is below a directory entry into a tree, without the contents of files. Links to
directories are not followed. -/
partial def listEntry (place : Location) (entry : IO.FS.DirEntry) (tree : FileTree) : IO FileTree := do
  if (← entry.path.symlinkMetadata).type == .dir then
    let tree := tree.put place .directory
    match ← children? entry with
    | none => return { tree with unlistable := place :: tree.unlistable }
    | some children =>
      children.foldlM (fun tree child => listEntry (place ++ [child.fileName]) child tree) tree
  else return tree.put place (.file (.bytes .empty))

/-- Puts what is at a path into a tree, if anything is there. -/
def list (path : Pathname) (tree : FileTree) : IO FileTree := do
  let entry : IO.FS.DirEntry := { root := ← IO.currentDir, fileName := path.text }
  if ← entry.path.pathExists then
    let place := FileTree.placeOf tree.home path
    listEntry place entry (withAncestors tree place)
  else return tree

/-- Reads the file at a path of a tree. -/
def readInto (tree : FileTree) (path : Pathname) : IO FileTree := do
  match tree.locationOf path with
  | .error _ => return tree
  | .ok location =>
    match tree.entryAt location with
    | some (.file _) =>
      try
        let bytes ← IO.FS.readBinFile (absoluteText location)
        return tree.put location (.file (Content.ofBytes bytes))
      catch _ => return tree
    | _ => return tree

/-- The files that an invocation can see. -/
def observe (invocation : Invocation) : IO FileTree := do
  let home := FileTree.placeOf [] ⟨(← IO.currentDir).toString⟩
  let tree := withAncestors { home } (home ++ [""])
  let tree ← list invocation.project tree
  let tree ← list invocation.settingsPath tree
  let tree ← readInto tree invocation.settingsPath
  match Store.load tree invocation.settingsPath with
  | .error _ => return tree
  | .ok store =>
    store.settings.files.foldlM
      (fun tree setting => readInto tree (invocation.project.join ⟨setting.path⟩)) tree

/-- Makes one change to the files at a location. An error names the location. -/
def changeAt (location : Location) (change : String → IO Unit) : IO Unit := do
  let text := absoluteText location
  try change text
  catch error => throw (IO.userError ("IO error at '" ++ text ++ "': " ++ toString error))

/-- Makes the changes of a run to the files, up to the first one that the system refuses. -/
def carryOut (before after : FileTree) : IO Unit := do
  for (location, entry) in after.entries.toList do
    if entry == .directory && (before.entryAt location).isNone then
      changeAt location fun text => IO.FS.createDirAll text
  for (location, content) in FileTree.changes before after do
    changeAt location fun text =>
      match content with
      | none => IO.FS.removeFile text
      | some (.text value) => IO.FS.writeFile text value
      | some (.bytes value) => IO.FS.writeBinFile text value

end UxmlBindings.CommandLine

open UxmlBindings.CommandLine

/-- Runs the program. -/
def main (arguments : List String) : IO UInt32 := do
  try
    let before ←
      match Request.ofArguments arguments with
      | .ok (.run invocation) => observe invocation
      | _ => pure {}
    let result := run arguments before
    for notice in result.notices do
      IO.eprintln notice.line
    carryOut before result.tree
    IO.print result.output
    IO.eprint result.ending.errorText
    return result.ending.status.toUInt32
  catch error =>
    IO.eprintln ("Error: " ++ toString error)
    return 1
