/-
This file holds the ways in which access to a file can fail, and their wording.
-/

namespace EngineDocs

/-- Why a file or a directory could not be used. -/
inductive Fault where
  | noEntry
  | denied
  | alreadyExists
  | notDirectory
  | isDirectory
  | nameTooLong
  | nulInPath
  | invalidText
  deriving DecidableEq

namespace Fault

/-- The wording of a fault. -/
def message : Fault → String
  | noEntry => "No such file or directory (os error 2)"
  | denied => "Permission denied (os error 13)"
  | alreadyExists => "File exists (os error 17)"
  | notDirectory => "Not a directory (os error 20)"
  | isDirectory => "Is a directory (os error 21)"
  | nameTooLong => "File name too long (os error 36)"
  | nulInPath => "file name contained an unexpected NUL byte"
  | invalidText => "stream did not contain valid UTF-8"

end Fault

end EngineDocs
