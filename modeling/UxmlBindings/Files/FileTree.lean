import Std.Data.ExtTreeMap
import UxmlBindings.Files.Fault
import UxmlBindings.Files.Pathname

/-!
# File trees

A file tree holds directories and files under their locations, which are lists of names from the
top. Paths are resolved step by step: every piece but the last has to lead to a directory that
exists, two dots go up, and relative paths start at the home directory of the tree. A path that is
too long as a text is refused before its first step. Operations on a path look at nothing but the
location that it resolves to.

The operations on a tree are those of a system with no links, where a location is reached in one way
only. Such a system refuses no permission but to list a directory, and never breaks a write off: it
takes place as a whole or not at all. Where it matters that a system can be otherwise, its operations are
a parameter, a `System`, and what is asked of it is a hypothesis.
-/

namespace UxmlBindings.Files

/-- The names from the top of a tree down to an entry. -/
abbrev Location := List String

/-- What a file holds: a text, or bytes that are no text. -/
inductive Content where
  | text (value : String)
  | bytes (value : ByteArray)

/-- Contents are equal if they are of one kind and hold the same. -/
instance : DecidableEq Content
  | .text first, .text second =>
    if same : first = second then isTrue (congrArg Content.text same)
    else isFalse fun equal => same (Content.text.inj equal)
  | .bytes first, .bytes second =>
    match ByteArray.instDecidableEq first second with
    | isTrue same => isTrue (congrArg Content.bytes same)
    | isFalse different => isFalse fun equal => different (Content.bytes.inj equal)
  | .text _, .bytes _ => isFalse nofun
  | .bytes _, .text _ => isFalse nofun

/-- The content with the given bytes. -/
def Content.ofBytes (bytes : ByteArray) : Content :=
  match String.fromUTF8? bytes with
  | some value => .text value
  | none => .bytes bytes

/-- What stands at a location. -/
inductive Entry where
  | directory
  | file (content : Content)
  deriving DecidableEq

/-- Directories and files. The top is a directory and has no entry of its own. Some directories cannot
be listed. -/
structure FileTree where
  entries : Std.ExtTreeMap Location Entry := ∅
  home : Location := []
  unlistable : List Location := []
  deriving DecidableEq

namespace FileTree

/-- What stands at a location. -/
def entryAt (tree : FileTree) (location : Location) : Option Entry :=
  if location.isEmpty then some .directory else tree.entries[location]?

/-- The content of the file at a location, if a file is there. -/
def content? (tree : FileTree) (location : Location) : Option Content :=
  match tree.entryAt location with
  | some (.file content) => some content
  | _ => none

/-- The tree with an entry put at a location. -/
def put (tree : FileTree) (location : Location) (entry : Entry) : FileTree :=
  { tree with entries := tree.entries.insert location entry }

/-- The tree without the entry at a location. -/
def erase (tree : FileTree) (location : Location) : FileTree :=
  { tree with entries := tree.entries.erase location }

/-- The number of bytes that a name may have. -/
def maxNameBytes : Nat := 255

/-- The number of bytes that a path may have. -/
def maxPathBytes : Nat := 4095

/-- Why a path cannot be looked up at all, whatever the tree holds. Nothing is at the empty path. -/
def refusal? (path : Pathname) : Option Fault :=
  if path.text.isEmpty then some .notFound
  else if path.text.toList.contains '\x00' then some .zeroInPath
  else if maxPathBytes < path.text.utf8ByteSize then some .tooLong
  else none

/-- Why no directory can be made at a path, whatever the tree holds. The empty path asks for none. -/
def makingRefusal? (path : Pathname) : Option Fault :=
  if path.text.isEmpty then none else refusal? path

/-- Where one piece leads from a directory. -/
inductive Turn where
  | stay
  | up
  | down (name : String)
  deriving DecidableEq, Repr

/-- The turn of a piece. -/
def turnOf (piece : List Char) : Turn :=
  if Pathname.isIdle piece then .stay
  else if piece == ['.', '.'] then .up
  else .down (String.ofList piece)

/-- Follows pieces down from a directory. The last piece need not lead to anything. -/
def follow (tree : FileTree) (place : Location) : List (List Char) → Except Fault Location
  | [] => .ok place
  | piece :: rest =>
    match turnOf piece with
    | .stay => follow tree place rest
    | .up => follow tree place.dropLast rest
    | .down name =>
      if maxNameBytes < name.utf8ByteSize then .error .tooLong
      else if rest.isEmpty then .ok (place ++ [name])
      else
        match tree.entryAt (place ++ [name]) with
        | some .directory => follow tree (place ++ [name]) rest
        | some (.file _) => .error .notADirectory
        | none => .error .notFound

/-- Where the pieces of a path start. -/
def start (tree : FileTree) (path : Pathname) : Location :=
  if path.isAbsolute then [] else tree.home

/-- The location that a piece leads to from another one if the step can be taken. -/
def turnFrom (place : Location) (piece : List Char) : Location :=
  match turnOf piece with
  | .stay => place
  | .up => place.dropLast
  | .down name => place ++ [name]

/-- The location that a path leads to if every step of it can be taken. -/
def placeOf (home : Location) (path : Pathname) : Location :=
  path.pieces.foldl turnFrom (if path.isAbsolute then [] else home)

/-- The location that a path leads to; its directory exists, but there may be nothing at it. -/
def locationOf (tree : FileTree) (path : Pathname) : Except Fault Location :=
  match refusal? path with
  | some fault => .error fault
  | none => tree.follow (tree.start path) path.pieces

/-- What stands at a path. -/
def find? (tree : FileTree) (path : Pathname) : Option Entry :=
  match tree.locationOf path with
  | .ok location => tree.entryAt location
  | .error _ => none

/-- Whether anything stands at a path. -/
def holds (tree : FileTree) (path : Pathname) : Bool :=
  (tree.find? path).isSome

/-- Whether a directory stands at a path. -/
def holdsDirectory (tree : FileTree) (path : Pathname) : Bool :=
  tree.find? path == some .directory

/-- The text of the file at a path. -/
def readText (tree : FileTree) (path : Pathname) : Except Fault String := do
  let location ← tree.locationOf path
  match tree.entryAt location with
  | none => .error .notFound
  | some .directory => .error .isADirectory
  | some (.file (.bytes _)) => .error .notText
  | some (.file (.text value)) => .ok value

/-- Writes a file, replacing one that is already there. -/
def write (tree : FileTree) (path : Pathname) (content : Content) : Except Fault FileTree := do
  let location ← tree.locationOf path
  match tree.entryAt location with
  | some .directory => .error .isADirectory
  | _ => .ok (tree.put location (.file content))

/-- Removes the file at a path. -/
def removeFile (tree : FileTree) (path : Pathname) : Except Fault FileTree := do
  let location ← tree.locationOf path
  match tree.entryAt location with
  | none => .error .notFound
  | some .directory => .error .isADirectory
  | some (.file _) => .ok (tree.erase location)

/-- Makes the directories that are missing on the way down some pieces. When one of them cannot be
made, those before it remain. -/
def makeDirectoriesFrom (tree : FileTree) (place : Location) :
    List (List Char) → Except Fault Unit × FileTree
  | [] => (.ok (), tree)
  | piece :: rest =>
    match turnOf piece with
    | .stay => makeDirectoriesFrom tree place rest
    | .up => makeDirectoriesFrom tree place.dropLast rest
    | .down name =>
      if maxNameBytes < name.utf8ByteSize then (.error .tooLong, tree)
      else
        let location := place ++ [name]
        match tree.entryAt location with
        | some .directory => makeDirectoriesFrom tree location rest
        | some (.file _) =>
          (.error (if rest.all List.isEmpty then .alreadyExists else .notADirectory), tree)
        | none => makeDirectoriesFrom (tree.put location .directory) location rest

/-- Makes a directory and those above it, as far as they are missing. -/
def makeDirectories (tree : FileTree) (path : Pathname) : Except Fault Unit × FileTree :=
  match makingRefusal? path with
  | some fault => (.error fault, tree)
  | none => tree.makeDirectoriesFrom (tree.start path) path.pieces

/-- The names that lead from one location down to another one. -/
def namesBelow? (top location : Location) : Option (List String) :=
  if top.isPrefixOf location then some (location.drop top.length) else none

/-- The path that leads from a path down some names. -/
def pathTo (path : Pathname) (names : List String) : Pathname :=
  names.foldl (fun path name => path.join ⟨name⟩) path

/-- What a walk through a directory comes upon. Paths start with that of the directory. -/
inductive Sighting where
  | file (path : Pathname)
  /-- A directory into which the walk cannot go. -/
  | closed (directory : Pathname) (fault : Fault)
  deriving DecidableEq, Repr

/-- Why a walk cannot go into the directory at a location. Walks use the path of a directory, whatever it
is, and have to list what is in it. -/
def barrier? (tree : FileTree) (path : Pathname) (location : Location) : Option Fault :=
  match refusal? path with
  | some fault => some fault
  | none => if tree.unlistable.contains location then some .denied else none

/-- Whether a walk from a path comes to where some names lead down: there is no barrier on the way. -/
def comesTo (tree : FileTree) (path : Pathname) (top : Location) (names : List String) : Bool :=
  (List.range names.length).all fun count =>
    (tree.barrier? (pathTo path (names.take count)) (top ++ names.take count)).isNone

/-- What a walk from a path sees of the entry that some names lead to. -/
def sighting? (tree : FileTree) (path : Pathname) (top : Location) (names : List String)
    (entry : Entry) : Option Sighting :=
  if tree.comesTo path top names then
    match entry with
    | .file _ => some (.file (pathTo path names))
    | .directory =>
      (tree.barrier? (pathTo path names) (top ++ names)).map (.closed (pathTo path names))
  else none

/-- What a walk through the directory at a path comes upon, in the order of locations. The order in
which a system lists a directory is not specified, so of a list of sightings nothing but its order may
depend on it. The list is complete before anything in it is removed; because walks remove no directory,
one that goes on in between comes upon the same entries. -/
def walk (tree : FileTree) (path : Pathname) : List Sighting :=
  match tree.locationOf path with
  | .error _ => []
  | .ok top =>
    ([] :: tree.entries.keys).filterMap fun location =>
      (namesBelow? top location).bind fun names =>
        (tree.entryAt location).bind (tree.sighting? path top names)

/-- The tree without everything at and below a path. -/
def removeAll (tree : FileTree) (path : Pathname) : FileTree :=
  match tree.locationOf path with
  | .error _ => tree
  | .ok top => { tree with entries := tree.entries.filter fun location _ => !top.isPrefixOf location }

/-- Writes a file and makes the directories above it. A fault comes with the path that it concerns,
the directory or the file; directories that were made remain. -/
def writeWithParents (tree : FileTree) (path : Pathname) (content : Content) :
    Except (Pathname × Fault) Unit × FileTree :=
  let (made, tree) : Except (Pathname × Fault) Unit × FileTree :=
    match path.parent? with
    | none => (.ok (), tree)
    | some parent =>
      let (made, tree) := tree.makeDirectories parent
      (made.mapError fun fault => (parent, fault), tree)
  match made with
  | .error fault => (.error fault, tree)
  | .ok () =>
    match tree.write path content with
    | .error fault => (.error (path, fault), tree)
    | .ok tree => (.ok (), tree)

/-- The files of a tree with their locations. -/
def files (tree : FileTree) : List (Location × Content) :=
  tree.entries.toList.filterMap fun (location, entry) =>
    match entry with
    | .directory => none
    | .file content => some (location, content)

/-- How the files of a tree differ from those of an earlier one: new contents, or none where a file
is gone. -/
def changes (before after : FileTree) : List (Location × Option Content) :=
  (before.files.filterMap fun (location, _) =>
    if (after.content? location).isNone then some (location, none) else none) ++
  after.files.filterMap fun (location, content) =>
    if before.content? location == some content then none else some (location, some content)

/-- What was put at a location is found there, and nothing else has changed. -/
theorem entryAt_put (tree : FileTree) {location : Location} (nonempty : location ≠ []) (entry : Entry)
    (other : Location) :
    (tree.put location entry).entryAt other =
      if location = other then some entry else tree.entryAt other := by
  by_cases top : other = []
  · simp [entryAt, top, nonempty]
  · simp [entryAt, put, top, Std.ExtTreeMap.getElem?_insert]

/-- Nothing is left where an entry was erased, and nothing else has changed. -/
theorem entryAt_erase (tree : FileTree) {location : Location} (nonempty : location ≠ [])
    (other : Location) :
    (tree.erase location).entryAt other =
      if location = other then none else tree.entryAt other := by
  by_cases top : other = []
  · simp [entryAt, top, nonempty]
  · simp [entryAt, erase, top, Std.ExtTreeMap.getElem?_erase]

end FileTree

end UxmlBindings.Files
