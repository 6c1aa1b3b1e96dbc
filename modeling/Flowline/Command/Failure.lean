import Flowline.Error
import Flowline.Text.Blank

/-!
# Failures of commands

A command that fails says what it was about to do and then why it could not, one cause after the
other.
-/

namespace Flowline.Command

open Text

/-- Why a command failed. -/
structure Failure where
  message : String
  /-- What was behind it, nearest first. -/
  causes : List String
deriving DecidableEq

namespace Failure

/-- The failure with one message. -/
def ofMessage (message : String) : Failure := ⟨message, []⟩

def ofError (e : Error) : Failure := ⟨e.message, e.cause?.toList⟩

/-- The failure of what `message` says because of `f`. -/
def during (message : String) (f : Failure) : Failure := ⟨message, f.message :: f.causes⟩

/-- A text whose first line begins with `first` and every other one with `other`. -/
def indented (first other : String) (s : String) : String :=
  first ++ ("\n" ++ other).intercalate ((lines s.toList).map String.ofList)

/-- The causes, with numbers. -/
def numbered : Nat → List String → List String
  | _, [] => []
  | n, cause :: causes =>
    let number := n.repr
    let padding := String.ofList (List.replicate (5 - number.length) ' ')
    indented (padding ++ number ++ ": ") "       " cause :: numbered (n + 1) causes

/-- The causes as they are shown: with numbers if there are several. -/
def causeLines : List String → List String
  | [] => []
  | [cause] => ["", "Caused by:", indented "    " "    " cause]
  | causes => "" :: "Caused by:" :: numbered 0 causes

/-- The failure as it is shown. -/
def text (f : Failure) : String :=
  "\n".intercalate (("Error: " ++ f.message) :: causeLines f.causes)

end Failure

end Flowline.Command
