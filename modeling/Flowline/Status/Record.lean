import Flowline.Json.Value
import Flowline.Status
import Flowline.Time.Instant

/-!
# Status records and patches

A `Record` is what is known of one sub-stage, a `Patch` what an event says of it. A patch writes
the fields that it provides and leaves the others alone; a time may also be cleared. `merge`
applies the patches of an event to a map of records: a name that has no record yet gets one.
-/

namespace Flowline

open Time

/-- What is known of one sub-stage. -/
structure Record where
  status : Status
  startTime : Option Instant
  endTime : Option Instant
  /-- Details of the source, not looked into. -/
  details : NameMap Json
deriving DecidableEq

namespace Record

/-- The record with a status and nothing else. -/
def ofStatus (status : Status) : Record := ⟨status, none, none, NameMap.empty⟩

/-- The record of a sub-stage that was declared and never heard of. -/
def pending : Record := ofStatus .pending

instance : Inhabited Record := ⟨pending⟩

end Record

/-- What a patch says of a time. -/
inductive TimeChange where
  | keep
  | clear
  | set (t : Instant)
deriving DecidableEq

/-- The time after the change. -/
def TimeChange.apply : TimeChange → Option Instant → Option Instant
  | keep, old => old
  | clear, _ => none
  | set t, _ => some t

/-- The change that makes the time what is given. -/
def TimeChange.to : Option Instant → TimeChange
  | none => clear
  | some t => set t

/-- What an event says of one sub-stage. -/
structure Patch where
  status : Option Status
  startTime : TimeChange
  endTime : TimeChange
  details : Option (NameMap Json)
deriving DecidableEq

namespace Patch

/-- The patch that says nothing. -/
def empty : Patch := ⟨none, .keep, .keep, none⟩

/-- The patch that sets a status. -/
def ofStatus (status : Status) : Patch := { empty with status := some status }

/-- Writes the provided fields. -/
def apply (p : Patch) (r : Record) : Record where
  status := p.status.getD r.status
  startTime := p.startTime.apply r.startTime
  endTime := p.endTime.apply r.endTime
  details := p.details.getD r.details

end Patch

/-- Records by sub-stage name. -/
abbrev StatusMap := NameMap Record

/-- Patches by sub-stage name. -/
abbrev Patches := NameMap Patch

namespace StatusMap

/-- Applies one patch. -/
def patch (m : StatusMap) (name : String) (p : Patch) : StatusMap :=
  m.alter name fun old => p.apply (old.getD Record.pending)

/-- Applies the patches of an event. Names without a patch keep their records. -/
def merge (m : StatusMap) (patches : Patches) : StatusMap :=
  patches.entries.foldl (fun m entry => patch m entry.1 entry.2) m

/-- The map with a pending record for each of the names that has none. -/
def seed (m : StatusMap) (names : List String) : StatusMap :=
  names.foldl (fun m name => NameMap.alter m name fun old => old.getD Record.pending) m

end StatusMap

/-- The news of one flow. -/
structure Event where
  flowName : String
  timestamp : Instant
  stages : Patches
deriving DecidableEq

end Flowline
