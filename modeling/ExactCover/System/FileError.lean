/-!
# Errors of the file system

What the operating system can answer instead of reading, writing or starting a file.
-/

namespace ExactCover

/-- Why a file operation failed. -/
inductive FileError where
  | notFound
  | noDevice
  | execFormat
  | permissionDenied
  | notADirectory
  | isADirectory
  | noSpace
  | nameTooLong
  /-- The bytes of a file are no text. -/
  | invalidText
  /-- Any other error, in the words of the system. -/
  | other (words : String)
  deriving DecidableEq, Repr

/-- The error in the words of the system, with its number. -/
def FileError.message : FileError → String
  | notFound => "No such file or directory (os error 2)"
  | noDevice => "No such device or address (os error 6)"
  | execFormat => "Exec format error (os error 8)"
  | permissionDenied => "Permission denied (os error 13)"
  | notADirectory => "Not a directory (os error 20)"
  | isADirectory => "Is a directory (os error 21)"
  | noSpace => "No space left on device (os error 28)"
  | nameTooLong => "File name too long (os error 36)"
  | invalidText => "stream did not contain valid UTF-8"
  | other words => words

end ExactCover
