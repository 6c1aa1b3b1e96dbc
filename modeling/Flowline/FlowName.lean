import Flowline.Error
import Flowline.Text.Blank

/-!
# Flow names

A flow name is also the name of the file that the flow is stored in, so it must not be blank and
must not lead out of a directory: no separators, no two points in a row, no control characters.
`FlowName.check` refuses the others; `FlowName.fileName` is the name of the file.
-/

namespace Flowline.FlowName

open Text

/-- A character of the category Cc. -/
def isControl (c : Char) : Bool := c.toNat < 0x20 || (0x7F ≤ c.toNat && c.toNat < 0xA0)

/-- Whether two points stand in a row. -/
def hasTwoPoints : List Char → Bool
  | '.' :: '.' :: _ => true
  | _ :: s => hasTwoPoints s
  | [] => false

/-- Whether the name could be no file name, or that of a file elsewhere. -/
def isUnsafe (s : List Char) : Bool :=
  s.any (fun c => c == '/' || c == '\\') || hasTwoPoints s || s.any isControl

/-- A name that a flow may have. -/
def IsValid (name : String) : Prop :=
  isBlankText name.toList = false ∧ isUnsafe name.toList = false

instance (name : String) : Decidable (IsValid name) := inferInstanceAs (Decidable (_ ∧ _))

/-- Refuses a name that a flow may not have. -/
def check (name : String) : Except Error PUnit :=
  if isBlankText name.toList then .error .blankFlowName
  else if isUnsafe name.toList then .error (.unsafeFlowName name)
  else .ok ()

/-- The name of the file that a flow is stored in. -/
def fileName (name : String) : String := name ++ ".json"

end Flowline.FlowName
