/-!
# Why a file cannot be used

The ways in which the file system refuses to read or write, with its own wording.
-/

namespace Flowline

/-- Why the file system refuses. -/
inductive FileFault where
  | notFound
  | notDirectory
  | isDirectory
  | alreadyExists
  | nameTooLong
  /-- The character with code point 0 stands in no name. -/
  | impossibleName
  /-- A text was asked for where bytes are not UTF-8. -/
  | notText
deriving DecidableEq

namespace FileFault

/-- The wording of the system, with the number that it gives to a cause. -/
def numbered (text : String) (number : Nat) : String :=
  text ++ " (os error " ++ number.repr ++ ")"

def message : FileFault → String
  | notFound => numbered "No such file or directory" 2
  | alreadyExists => numbered "File exists" 17
  | notDirectory => numbered "Not a directory" 20
  | isDirectory => numbered "Is a directory" 21
  | nameTooLong => numbered "File name too long" 36
  | impossibleName => "file name contained an unexpected NUL byte"
  | notText => "stream did not contain valid UTF-8"

end FileFault

end Flowline
