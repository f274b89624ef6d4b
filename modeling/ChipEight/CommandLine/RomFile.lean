/-! # The program's file

The command looks its program up by a path. A file may be refused when it is opened or only when it
is read: a directory can be opened like a file but not read like one. -/

namespace ChipEight

/-- Why a file cannot be opened or read. -/
inductive FileError where
  | notFound
  | permissionDenied
  | notDirectory
  | isDirectory
  | nameTooLong
  | other (reason : String)
deriving DecidableEq

/-- The system's words for an error, with its number. -/
def FileError.message : FileError → String
  | .notFound => "No such file or directory (os error 2)"
  | .permissionDenied => "Permission denied (os error 13)"
  | .notDirectory => "Not a directory (os error 20)"
  | .isDirectory => "Is a directory (os error 21)"
  | .nameTooLong => "File name too long (os error 36)"
  | .other reason => reason

/-- What is found under the path of the program. -/
inductive RomFile where
  /-- Nothing that can be opened. -/
  | unopened (error : FileError)
  /-- Something that can be opened but not read. -/
  | unreadable (error : FileError)
  | bytes (program : List UInt8)
deriving DecidableEq

end ChipEight
