import Flowline.Text.Blank

/-!
# Statuses

The status of a sub-stage, or the aggregate of a stage. Execution systems have many words for the
same status: `Status.normalize` knows them, in any case and with blanks around them, and takes
every other word for an unknown status.
-/

namespace Flowline

open Text

/-- How far a sub-stage has got. -/
inductive Status where
  /-- Declared and not started. -/
  | pending
  | running
  | completed
  | failed
  /-- The source that should know the status failed. -/
  | error
  /-- Nothing is recorded, or the recorded word is not known. -/
  | unknown
deriving DecidableEq, Repr

namespace Status

instance : Inhabited Status := ⟨pending⟩

def all : List Status := [pending, running, completed, failed, error, unknown]

/-- The lower-case name of the status. -/
def name : Status → String
  | pending => "pending"
  | running => "running"
  | completed => "completed"
  | failed => "failed"
  | error => "error"
  | unknown => "unknown"

/-- The words that stand for a status, in lower case. -/
def words : List (String × Status) :=
  [("pending", pending), ("queued", pending), ("scheduled", pending), ("not_started", pending),
   ("none", pending), ("running", running), ("up_for_retry", running), ("restarting", running),
   ("completed", completed), ("success", completed), ("failed", failed),
   ("upstream_failed", failed), ("error", error)]

/-- The status that a word stands for. Only letters of ASCII are compared without case: no other
character has a lower case that occurs in a word of the table. -/
def normalize (raw : String) : Status :=
  (words.lookup (String.ofList ((trim raw.toList).map Char.toLower))).getD unknown

/-- Whether the status will not change any more. -/
def isTerminal : Status → Bool
  | completed | failed | error => true
  | pending | running | unknown => false

/-- The status of a whole from the statuses of its parts. One failed part makes it failed, else
one in error makes it an error, else one that runs makes it run. It is completed if all parts are
and there is one; otherwise it is pending. -/
def aggregate (parts : List Status) : Status :=
  if parts.contains failed then failed
  else if parts.contains error then error
  else if parts.contains running then running
  else if parts ≠ [] ∧ parts.all (· == completed) then completed
  else pending

end Status

end Flowline
