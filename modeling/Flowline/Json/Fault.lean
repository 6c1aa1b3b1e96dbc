import Flowline.Json.Node
import Flowline.Text.Escape
import Flowline.Text.Integer

/-!
# Why a JSON text is refused

A text is refused because it breaks off or because a value in it does not fit. `Mismatch` lists
the ways in which a value does not fit; `Mismatch.message` is the wording.
-/

namespace Flowline.Json

/-- What stands where something else is expected. -/
inductive Found where
  | null
  | bool (b : Bool)
  | integer (n : Int)
  | float (x : Decimal.Double)
  | text (s : String)
  | list
  | object
deriving DecidableEq

/-- What a number is found as. -/
def Found.ofNumber : Number → Found
  | .integer n => integer n
  | .float x => float x

def Found.message : Found → String
  | null => "null"
  | bool b => "boolean `" ++ (if b then "true" else "false") ++ "`"
  | integer n => "integer `" ++ Text.integerText n ++ "`"
  | float x => "floating point `" ++ x.text ++ "`"
  | text s => "string \"" ++ Text.EscapeStyle.quoted.shown s ++ "\""
  | list => "sequence"
  | object => "map"

/-- The ways in which a value does not fit. -/
inductive Mismatch where
  | missingField (name : String)
  | duplicateField (name : String)
  | unknownVariant (name : String) (known : List String)
  | wrongType (found : Found) (expected : String)
  | wrongValue (found : Found) (expected : String)
  | wrongLength (length : Nat) (expected : String)
  /-- A value that fits none of the forms that the type has. -/
  | noForm (type : String)
  /-- A time of an event that names no instant. -/
  | invalidTimestamp (raw : String)
  /-- A time of a full record that names no instant. -/
  | badTimestamp
deriving DecidableEq

/-- The names between backquotes, with the words that join them. -/
def alternatives : List String → String
  | [] => "there are no variants"
  | [a] => "expected `" ++ a ++ "`"
  | [a, b] => "expected `" ++ a ++ "` or `" ++ b ++ "`"
  | names => "expected one of " ++ ", ".intercalate (names.map fun a => "`" ++ a ++ "`")

def Mismatch.message : Mismatch → String
  | missingField name => "missing field `" ++ name ++ "`"
  | duplicateField name => "duplicate field `" ++ name ++ "`"
  | unknownVariant name known => "unknown variant `" ++ name ++ "`, " ++ alternatives known
  | wrongType found expected => "invalid type: " ++ found.message ++ ", expected " ++ expected
  | wrongValue found expected => "invalid value: " ++ found.message ++ ", expected " ++ expected
  | wrongLength length expected => "invalid length " ++ length.repr ++ ", expected " ++ expected
  | noForm type => "data did not match any variant of untagged enum " ++ type
  | invalidTimestamp raw => "invalid timestamp '" ++ raw ++ "'"
  | badTimestamp => "bad timestamp"

/-- Why a text is refused. -/
inductive Fault where
  | broken (b : Break)
  | mismatch (m : Mismatch)
deriving DecidableEq

def Break.message : Break → String
  | malformed => "the text is malformed"
  | cutOff => "the text breaks off"

def Fault.message : Fault → String
  | broken b => b.message
  | mismatch m => m.message

/-- What a broken text is refused for. -/
def Break.fault {α : Type} : Except Break α → Except Fault α
  | .ok a => .ok a
  | .error b => .error (.broken b)

end Flowline.Json
