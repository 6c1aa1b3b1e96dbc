import Flowline.Monitor.Registry

/-!
# The status board

The `Board` holds the status map of every flow. Seeding gives every declared sub-stage a record
and leaves the records that are there alone, also those of sub-stages that are declared no more.
-/

namespace Flowline

/-- The status map of every flow. -/
structure Board where
  maps : NameMap StatusMap
deriving DecidableEq

namespace Board

/-- The board without maps. -/
def empty : Board := ⟨NameMap.empty⟩

instance : Inhabited Board := ⟨empty⟩

def get? (b : Board) (name : String) : Option StatusMap := b.maps.get? name

/-- The map of a flow, which is empty if there is none. -/
def mapOf (b : Board) (name : String) : StatusMap := (b.get? name).getD NameMap.empty

/-- Puts a map in place of the one that the flow had. -/
def put (b : Board) (name : String) (m : StatusMap) : Board := ⟨b.maps.insert name m⟩

/-- Gives every sub-stage that a snapshot declares a record. -/
def seed (b : Board) (s : Snapshot) : Board :=
  b.put s.name ((b.mapOf s.name).seed s.graph.subStageNames)

/-- The map of the flow of an event after the event. -/
def mapAfter (b : Board) (e : Event) : StatusMap := (b.mapOf e.flowName).merge e.stages

/-- Merges an event into the map of its flow. -/
def apply (b : Board) (e : Event) : Board := b.put e.flowName (b.mapAfter e)

/-- Merges an event if it is accepted. -/
def applyIf (b : Board) (accepted : Bool) (e : Event) : Board := if accepted then b.apply e else b

def remove (b : Board) (name : String) : Board := ⟨b.maps.erase name⟩

end Board

end Flowline
