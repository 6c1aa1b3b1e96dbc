import Flowline.Graph.Basic

/-!
# Projecting statuses onto a graph

`project` lays the records of a status map over a graph: every sub-stage shows the record of its
name, or is unknown, every stage the aggregate of its sub-stages, and the whole the aggregate of
its stages. Nothing else of the graph changes.
-/

namespace Flowline

/-- How many sub-stages have each status. -/
structure StatusCounts where
  pending : Nat
  running : Nat
  completed : Nat
  failed : Nat
  error : Nat
  unknown : Nat
deriving DecidableEq, Inhabited

namespace StatusCounts

/-- The counts of a list of statuses. -/
def ofList (statuses : List Status) : StatusCounts where
  pending := statuses.count .pending
  running := statuses.count .running
  completed := statuses.count .completed
  failed := statuses.count .failed
  error := statuses.count .error
  unknown := statuses.count .unknown

def total (c : StatusCounts) : Nat :=
  c.pending + c.running + c.completed + c.failed + c.error + c.unknown

end StatusCounts

/-- A graph with statuses laid over it. -/
structure View where
  graph : Graph
  counts : StatusCounts
  /-- The aggregate over the stages. -/
  status : Status
deriving DecidableEq

/-- The sub-stage with the record of its name. -/
def SubStage.withStatus (statuses : StatusMap) (s : SubStage) : SubStage :=
  { s with status := (statuses.get? s.name).getD (Record.ofStatus .unknown) }

/-- The stage with the records of its sub-stages and their aggregate. -/
def StageNode.withStatus (statuses : StatusMap) (s : StageNode) : StageNode :=
  let subs := s.subStages.map (SubStage.withStatus statuses)
  { s with subStages := subs, status := Status.aggregate (subs.map (·.status.status)) }

/-- Lays the statuses over the graph. -/
def Graph.project (g : Graph) (statuses : StatusMap) : View :=
  let graph := { g with stages := g.stages.map (StageNode.withStatus statuses) }
  { graph
    counts := StatusCounts.ofList (graph.subStages.map (·.status.status))
    status := Status.aggregate (graph.stages.map StageNode.status) }

end Flowline
