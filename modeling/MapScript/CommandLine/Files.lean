/-!
# Files

What commands need of a file system.
-/

namespace MapScript.CommandLine

/-- Why a file cannot be read or written. -/
inductive FileError where
  | notFound
  | isDirectory
  | notDirectory
  | nameTooLong
  /-- What the path leads to has no contents that can be viewed in place. -/
  | noView
  | notUtf8
  | other (message : String)
deriving DecidableEq, Repr

namespace FileError

def message : FileError → String
  | notFound => "No such file or directory (os error 2)"
  | isDirectory => "Is a directory (os error 21)"
  | notDirectory => "Not a directory (os error 20)"
  | nameTooLong => "File name too long (os error 36)"
  | noView => "No such device (os error 19)"
  | notUtf8 => "stream did not contain valid UTF-8"
  | other message => message

/-- Whether the error means that the path leads to nothing. -/
def isMissing : FileError → Bool
  | notFound | notDirectory | nameTooLong => true
  | isDirectory | noView | notUtf8 | other _ => false

end FileError

/-- Whole files under their paths. -/
structure Files (m : Type → Type) where
  /-- The contents of a file. -/
  read : String → m (Except FileError (List UInt8))
  /-- The contents of a file, viewed in place. -/
  view : String → m (Except FileError (List UInt8))
  /-- Replaces the contents of a file. -/
  write : String → List UInt8 → m (Except FileError Unit)

end MapScript.CommandLine
