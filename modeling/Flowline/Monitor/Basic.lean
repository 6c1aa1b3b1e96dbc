import Flowline.FeedError
import Flowline.Monitor.Board
import Flowline.Projection

/-!
# The monitor

The `Monitor` answers questions about the registered flows and takes in news of them. It joins
the registry and the board: registering a flow seeds its map, removing it drops its map, and news
of a flow that is not registered is refused.
-/

namespace Flowline

/-- The registered flows and their statuses. -/
structure Monitor where
  registry : Registry
  board : Board
deriving DecidableEq

namespace Monitor

/-- The monitor without flows. -/
def empty : Monitor := ⟨Registry.empty, Board.empty⟩

instance : Inhabited Monitor := ⟨empty⟩

/-! ## Changing -/

/-- Registers a flow, or replaces the one with its name, and seeds its map. -/
def register (m : Monitor) (reg : Registration) : Snapshot × Monitor :=
  let (s, registry) := m.registry.register reg
  (s, ⟨registry, m.board.seed s⟩)

/-- Removes a flow and its map. -/
def remove (m : Monitor) (name : String) : Monitor :=
  ⟨m.registry.remove name, m.board.remove name⟩

/-- Merges an event of a registered flow, and answers with the map of the flow after it. -/
def apply (m : Monitor) (e : Event) : Except FeedError (StatusMap × Monitor) :=
  if m.registry.contains e.flowName then
    .ok (m.board.mapAfter e, { m with board := m.board.apply e })
  else .error (.flowNotRegistered e.flowName)

/-! ## Asking -/

def contains (m : Monitor) (name : String) : Bool := m.registry.contains name

def flows (m : Monitor) : List FlowSummary := m.registry.list

def snapshot? (m : Monitor) (name : String) : Option Snapshot := m.registry.get? name

def graph? (m : Monitor) (name : String) : Option Graph := (m.snapshot? name).map Snapshot.graph

/-- The map of a registered flow. -/
def status? (m : Monitor) (name : String) : Option StatusMap :=
  if m.contains name then some (m.board.mapOf name) else none

/-- The graph of a registered flow with its map laid over it. -/
def view? (m : Monitor) (name : String) : Option View :=
  (m.snapshot? name).map fun s => s.graph.project (m.board.mapOf name)

end Monitor

end Flowline
