/-!
# File systems

What the program needs of a file system, with effects in a monad: to read a text, to tell files from
anything else, and to write a text.
-/

namespace IdlSchema

/-- Why a file could not be read or written. -/
inductive FileFailure where
  | notFound
  | notADirectory
  | isADirectory
  | nameTooLong
  | nulInName
  | other (text : String)
  deriving DecidableEq

namespace FileFailure

/-- The message of the operating system. -/
def message : FileFailure → String
  | notFound => "No such file or directory (os error 2)"
  | notADirectory => "Not a directory (os error 20)"
  | isADirectory => "Is a directory (os error 21)"
  | nameTooLong => "File name too long (os error 36)"
  | nulInName => "file name contained an unexpected NUL byte"
  | other text => text

end FileFailure

/-- The operations of a file system. -/
structure FileSystem (m : Type → Type) where
  /-- The text of the file at a path. -/
  read : (path : String) → m (Except FileFailure String)
  /-- Whether there is a file at a path. -/
  isFile : (path : String) → m Bool
  /-- Makes a text the content of the file at a path. -/
  write : (path text : String) → m (Except FileFailure Unit)

end IdlSchema
