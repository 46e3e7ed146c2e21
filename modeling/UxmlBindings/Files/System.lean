import UxmlBindings.Files.FileTree

/-!
# Systems

A tree says what is found at every path. What an operation that changes files does to the tree is a
matter of the system: a file that is written through a link changes at two places, and a system whose
space is used up opens a file, which leaves it empty, and then fails to fill it. So these operations are
parameters. Reading and looking up change nothing and are those of the tree.

The operations of a plain system are those of the tree. There each location is found at one place only,
and what can be opened can be filled.
-/

namespace UxmlBindings.Files

/-- The operations of a system that change files. Whether they fail or not, they yield the tree as they
leave it. -/
structure System where
  /-- Makes a directory and those above it, as far as they are missing. -/
  makeDirectories : FileTree → Pathname → Except Fault Unit × FileTree
  /-- Opens a file to be written. It is made if it is missing, and is empty from then on. -/
  create : FileTree → Pathname → Except Fault Unit × FileTree
  /-- Fills a file that was opened. A failure may leave it with less than the text. -/
  fill : FileTree → Pathname → String → Except Fault Unit × FileTree
  /-- Removes a file. -/
  removeFile : FileTree → Pathname → Except Fault Unit × FileTree

namespace System

/-- Writes a text to a file, which is opened and then filled. -/
def write (system : System) (tree : FileTree) (path : Pathname) (text : String) :
    Except Fault Unit × FileTree :=
  match system.create tree path with
  | (.error fault, tree) => (.error fault, tree)
  | (.ok (), tree) => system.fill tree path text

/-- Makes the directories above a file. None are made for a path without a parent. -/
def makeParents (system : System) (tree : FileTree) (path : Pathname) :
    Except (Pathname × Fault) Unit × FileTree :=
  match path.parent? with
  | none => (.ok (), tree)
  | some parent =>
    let (made, tree) := system.makeDirectories tree parent
    (made.mapError fun fault => (parent, fault), tree)

/-- Writes a file and makes the directories above it. A fault comes with the path that it concerns,
the directory or the file. -/
def writeWithParents (system : System) (tree : FileTree) (path : Pathname) (text : String) :
    Except (Pathname × Fault) Unit × FileTree :=
  match system.makeParents tree path with
  | (.error fault, tree) => (.error fault, tree)
  | (.ok (), tree) =>
    let (written, tree) := system.write tree path text
    (written.mapError fun fault => (path, fault), tree)

/-- The result of an operation that leaves the tree as it was if it fails. -/
def settle (tree : FileTree) : Except Fault FileTree → Except Fault Unit × FileTree
  | .ok later => (.ok (), later)
  | .error fault => (.error fault, tree)

/-- The system whose operations are those of the tree. -/
def plain : System where
  makeDirectories := FileTree.makeDirectories
  create tree path := settle tree (tree.write path (.text ""))
  fill tree path text := settle tree (tree.write path (.text text))
  removeFile tree path := settle tree (tree.removeFile path)

end System

end UxmlBindings.Files
