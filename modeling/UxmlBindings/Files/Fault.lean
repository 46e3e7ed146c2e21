/-!
# Faults of file operations

The ways in which looking up, reading, writing or removing a file can fail, with the wording of the
system. Faults of the hardware, of permissions other than to list a directory, and of limits other than
those of paths and of space are left out.
-/

namespace UxmlBindings.Files

/-- Why a file operation failed. -/
inductive Fault where
  /-- Nothing stands at the path. -/
  | notFound
  /-- A file stands where the path needs a directory. -/
  | notADirectory
  /-- A directory stands where a file is wanted. -/
  | isADirectory
  /-- The path, or a name in it, is longer than can be looked up. -/
  | tooLong
  /-- The path holds the zero character, which no name can hold. -/
  | zeroInPath
  /-- The bytes of the file are no text. -/
  | notText
  /-- A file stands where a directory is to be made. -/
  | alreadyExists
  /-- The system does not let a directory be listed. -/
  | denied
  /-- There is no space left for what is to be written. -/
  | noSpace
  deriving DecidableEq, Repr

/-- The wording of a fault. -/
def Fault.message : Fault → String
  | .notFound => "No such file or directory (os error 2)"
  | .notADirectory => "Not a directory (os error 20)"
  | .isADirectory => "Is a directory (os error 21)"
  | .tooLong => "File name too long (os error 36)"
  | .zeroInPath => "file name contained an unexpected NUL byte"
  | .notText => "stream did not contain valid UTF-8"
  | .alreadyExists => "File exists (os error 17)"
  | .denied => "Permission denied (os error 13)"
  | .noSpace => "No space left on device (os error 28)"

end UxmlBindings.Files
