import Flowline.Json.Record
import Flowline.Status.Record
import Flowline.Time.Pattern

/-!
# Records, patches and events as JSON

How statuses are written as JSON and read from it. A record writes all of its fields, a patch
only those that it provides, a cleared time as `null`. A time of a record must be complete; a
time of a patch that names no instant counts as not provided; the time of an event may be absent,
which means the time at which the event is read, but not wrong.
-/

namespace Flowline

open Json Time

namespace Json

/-- A value, or `null`. -/
def ofOption {α : Type} (f : α → Json) : Option α → Json
  | none => .null
  | some a => f a

/-- A member that is left out if there is no value. -/
def memberIfSome {α : Type} (name : String) (f : α → Json) : Option α → List (String × Json)
  | none => []
  | some a => [(name, f a)]

/-- A map in the order of its names. -/
def ofMap {α : Type} (f : α → Json) (m : NameMap α) : Json := .ofNameMap (m.mapValues f)

end Json

def Time.Instant.toJson (t : Instant) : Json := .text t.text

def Status.toJson (s : Status) : Json := .text s.name

/-! ## Writing -/

def Record.toJson (r : Record) : Json :=
  .object
    [("status", r.status.toJson),
     ("start_time", .ofOption Instant.toJson r.startTime),
     ("end_time", .ofOption Instant.toJson r.endTime),
     ("details", .ofNameMap r.details)]

/-- The member for a time, unless the time is kept. -/
def TimeChange.toMember (name : String) : TimeChange → List (String × Json)
  | keep => []
  | clear => [(name, .null)]
  | set t => [(name, t.toJson)]

def Patch.toJson (p : Patch) : Json :=
  .object
    (Json.memberIfSome "status" Status.toJson p.status ++
      p.startTime.toMember "start_time" ++
      p.endTime.toMember "end_time" ++
      Json.memberIfSome "details" Json.ofNameMap p.details)

def StatusMap.toJson (m : StatusMap) : Json := .ofMap Record.toJson m

def Event.toJson (e : Event) : Json :=
  .object
    [("flowName", .text e.flowName),
     ("timestamp", e.timestamp.toJson),
     ("stages", .ofMap Patch.toJson e.stages)]

/-! ## Reading -/

/-- A status is any text. -/
def Status.reader : Reader Status := Reader.text.map Status.normalize

/-- A complete time. -/
def zonedTimeReader : Reader Instant := fun _ node =>
  match readText? node with
  | some result => do
    match zonedTimestamp? (← result) with
    | some t => return t
    | none => mismatch .badTimestamp
  | none => wrongType "an RFC 3339 formatted date and time string" node

/-- The time of an event. -/
def eventTimeReader : Reader Instant := fun mode node => do
  let raw ← Reader.text mode node
  match timestamp? raw with
  | some t => return t
  | none => mismatch (.invalidTimestamp raw)

/-- What a patch says of a time: `null` clears it, and a text that names no instant says
nothing. -/
def TimeChange.ofRaw : Option String → TimeChange
  | none => clear
  | some raw =>
    match timestamp? raw with
    | some t => set t
    | none => keep

def TimeChange.reader : Reader TimeChange := Reader.text.optional.map TimeChange.ofRaw

def Record.reader : Reader Record :=
  (Reader.record "struct StatusRecord"
    (.cons (.required "status" Status.reader)
    (.cons (.withDefault "start_time" zonedTimeReader.optional none)
    (.cons (.withDefault "end_time" zonedTimeReader.optional none)
    (.cons (.withDefault "details" Reader.anyMap NameMap.empty) .nil))))).map
    fun (status, startTime, endTime, details, ()) => ⟨status, startTime, endTime, details⟩

def Patch.reader : Reader Patch :=
  (Reader.record "struct StatusPatch"
    (.cons (.withDefault "status" Status.reader.optional none)
    (.cons (.withDefault "start_time" TimeChange.reader .keep)
    (.cons (.withDefault "end_time" TimeChange.reader .keep)
    (.cons (.withDefault "details" Reader.anyMap.optional none) .nil))))).map
    fun (status, startTime, endTime, details, ()) => ⟨status, startTime, endTime, details⟩

def Patches.reader : Reader Patches := Reader.nameMap Patch.reader

/-- An event that is read at the time `now`. -/
def Event.reader (now : Instant) : Reader Event :=
  (Reader.record "struct StatusEvent"
    (.cons ⟨"flowName", ["flow_name"], Reader.text, none⟩
    (.cons (.withDefault "timestamp" eventTimeReader now)
    (.cons ⟨"stages", ["status"], Patches.reader, some NameMap.empty⟩ .nil)))).map
    fun (flowName, timestamp, stages, ()) => ⟨flowName, timestamp, stages⟩

end Flowline
