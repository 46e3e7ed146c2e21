import UxmlBindings.Text.Blank
import UxmlBindings.Text.Split

/-!
# Paths

A path is kept as it is written, because that is how it is shown. What it names is decided by its
components: repeated slashes, slashes at the end and single dots after the start add none. Two
different texts with the same components are the same path, and paths are ordered by components.
-/

namespace UxmlBindings.Files

/-- A path as it is written. -/
structure Pathname where
  text : String
  deriving DecidableEq, Repr, Inhabited

/-- One step of a path. -/
inductive Component where
  /-- The top of the file system. -/
  | top
  /-- The directory itself; only at the start of a path. -/
  | here
  | up
  | named (name : String)
  deriving DecidableEq, Repr

namespace Component

/-- The place of a kind of component in the order of components. -/
def rank : Component → Nat
  | .top => 0
  | .here => 1
  | .up => 2
  | .named _ => 3

/-- The order of components: by kind, and then by name. -/
def precedes : Component → Component → Bool
  | .named first, .named second => first < second
  | first, second => first.rank < second.rank

end Component

namespace Pathname

/-- The pieces of a path between its slashes. -/
def pieces (path : Pathname) : List (List Char) :=
  Text.splitOn '/' path.text.toList

/-- Whether a path starts at the top of the file system. -/
def isAbsolute (path : Pathname) : Bool :=
  path.text.toList.head? == some '/'

/-- What a path starts with before its ordinary pieces: a slash, a single dot, or nothing. -/
inductive Lead where
  | top
  | here
  | none
  deriving DecidableEq, Repr

/-- The lead of a path and the pieces after it. -/
def split (path : Pathname) : Lead × List (List Char) :=
  match path.pieces with
  | [] => (.none, [])
  | first :: rest =>
    if first.isEmpty && !rest.isEmpty then (.top, rest)
    else if first == ['.'] then (.here, rest)
    else (.none, first :: rest)

/-- Whether a piece adds no component. -/
def isIdle (piece : List Char) : Bool :=
  piece.isEmpty || piece == ['.']

/-- The component of a piece. -/
def component? (piece : List Char) : Option Component :=
  if isIdle piece then none
  else if piece == ['.', '.'] then some .up
  else some (.named (String.ofList piece))

/-- The component of a lead. -/
def Lead.component? : Lead → Option Component
  | .top => some .top
  | .here => some .here
  | .none => Option.none

/-- The components of a path. -/
def components (path : Pathname) : List Component :=
  let (lead, body) := path.split
  lead.component?.toList ++ body.filterMap component?

/-- Whether two paths have the same components. -/
def same (first second : Pathname) : Bool :=
  first.components == second.components

/-- Whether one path is before another in the order of components. -/
def componentsPrecede : List Component → List Component → Bool
  | [], [] => false
  | [], _ :: _ => true
  | _ :: _, [] => false
  | first :: rest, first' :: rest' =>
    first.precedes first' || (first == first' && componentsPrecede rest rest')

/-- Whether a path is not after another one. -/
def notAfter (first second : Pathname) : Bool :=
  !componentsPrecede second.components first.components

/-- A path continued by another one. An absolute path continues nothing. -/
def join (base next : Pathname) : Pathname :=
  if next.isAbsolute then next
  else if base.text.toList.isEmpty || base.text.toList.getLast? == some '/' then
    ⟨base.text ++ next.text⟩
  else ⟨base.text ++ "/" ++ next.text⟩

/-- The name that a path ends in, if it ends in a name. -/
def lastName? (path : Pathname) : Option String :=
  match path.components.getLast? with
  | some (.named name) => some name
  | _ => none

/-- A name up to its last dot; a dot at the start does not count. -/
def stemOf (name : List Char) : List Char :=
  let beforeDot := (Text.splitOn '.' name).dropLast
  let stem := ['.'].intercalate beforeDot
  if stem.isEmpty then name else stem

/-- The file name of a path up to its last dot. -/
def stem? (path : Pathname) : Option String :=
  path.lastName?.map fun name => String.ofList (stemOf name.toList)

/-- The pieces of a path without idle pieces at the end. -/
def withoutIdleEnd (pieces : List (List Char)) : List (List Char) :=
  Text.dropWhileEnd isIdle pieces

/-- Pieces with slashes between them. -/
def joinPieces (pieces : List (List Char)) : List Char :=
  ['/'].intercalate pieces

/-- The path without its last component. The top and the empty path have no parent. -/
def parent? (path : Pathname) : Option Pathname :=
  let (lead, body) := path.split
  match withoutIdleEnd body, lead with
  | [], .here => some ⟨""⟩
  | [], _ => none
  | used, lead =>
    let rest := withoutIdleEnd used.dropLast
    match lead with
    | .top => some ⟨String.ofList ('/' :: joinPieces rest)⟩
    | .here => some ⟨String.ofList (if rest.isEmpty then ['.'] else '.' :: '/' :: joinPieces rest)⟩
    | .none => some ⟨String.ofList (joinPieces rest)⟩

/-- The path with further characters at its end. -/
def extend (path : Pathname) (ending : String) : Pathname :=
  ⟨path.text ++ ending⟩

@[simp] theorem same_refl (path : Pathname) : path.same path = true := by
  simp [same]

/-- A relative path never starts with a slash after it was joined to the empty path. -/
theorem join_empty {next : Pathname} : join ⟨""⟩ next = next := by
  unfold join
  split <;> simp

end Pathname

end UxmlBindings.Files
