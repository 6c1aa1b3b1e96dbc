import Flowline.Registration

/-!
# Registered flows

A `Snapshot` is one registered version of a flow, built once and never changed. The `Registry`
holds the current snapshot of every flow. Versions count the registrations of the whole registry:
a registration first takes its version and then publishes its snapshot, which replaces the one
that the flow had.
-/

namespace Flowline

/-- One registered version of a flow. -/
structure Snapshot where
  name : String
  version : Nat
  /-- The fingerprint of the definition. -/
  fingerprint : String
  spec : Spec
  mapping : Mapping
  graph : Graph
  refreshInterval : Option Nat
deriving DecidableEq

/-- The entry of a flow in a listing. -/
structure FlowSummary where
  name : String
  stageCount : Nat
  categoryCount : Nat
  nodeCount : Nat
  edgeCount : Nat
  version : Nat
deriving DecidableEq

namespace Snapshot

/-- What a registration is registered as. -/
def ofRegistration (version : Nat) (r : Registration) : Snapshot where
  name := r.flowName
  version := version
  fingerprint := r.spec.fingerprint
  spec := r.spec
  mapping := r.mapping
  graph := r.graph
  refreshInterval := r.refreshInterval

def summary (s : Snapshot) : FlowSummary where
  name := s.name
  stageCount := s.graph.summary.stageCount
  categoryCount := s.graph.summary.categoryCount
  nodeCount := s.graph.summary.nodeCount
  edgeCount := s.graph.summary.edgeCount
  version := s.version

end Snapshot

/-- The current snapshot of every flow. -/
structure Registry where
  flows : NameMap Snapshot
  /-- The version that was taken last. -/
  lastVersion : Nat
deriving DecidableEq

namespace Registry

/-- The registry without flows. -/
def empty : Registry := ⟨NameMap.empty, 0⟩

instance : Inhabited Registry := ⟨empty⟩

/-- Takes the next version. -/
def takeVersion (r : Registry) : Nat × Registry :=
  (r.lastVersion + 1, { r with lastVersion := r.lastVersion + 1 })

/-- Makes a snapshot the current one of its flow. -/
def publish (r : Registry) (s : Snapshot) : Registry := { r with flows := r.flows.insert s.name s }

/-- Registers a flow. -/
def register (r : Registry) (reg : Registration) : Snapshot × Registry :=
  let (version, r) := r.takeVersion
  let s := Snapshot.ofRegistration version reg
  (s, r.publish s)

/-- Removes a flow. Versions are not given back. -/
def remove (r : Registry) (name : String) : Registry := { r with flows := r.flows.erase name }

def get? (r : Registry) (name : String) : Option Snapshot := r.flows.get? name

def contains (r : Registry) (name : String) : Bool := r.flows.contains name

/-- The entries of all flows, in the order of their names. -/
def list (r : Registry) : List FlowSummary := r.flows.values.map Snapshot.summary

def size (r : Registry) : Nat := r.flows.size

def isEmpty (r : Registry) : Bool := r.flows.isEmpty

end Registry

end Flowline
