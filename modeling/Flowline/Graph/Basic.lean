import Flowline.Mapping
import Flowline.Status.Record
import Flowline.SubStage

/-!
# Flow graphs

A graph holds the categories, stages and sub-stages of one flow and the order in which stages
run. Containment and order are separate: a category lists the ids of its stages, a stage holds
its sub-stages, and edges connect stages only.
-/

namespace Flowline

/-- Where a node is drawn. The place of a stage is relative to its category. -/
structure Layout where
  x : Int
  y : Int
  width : Option Nat
  height : Option Nat
deriving DecidableEq, Inhabited

/-- The smallest unit of work that is followed. -/
structure SubStage where
  id : String
  /-- The name under which events report on it. -/
  name : String
  /-- How it relates to the other sub-stages of its stage. -/
  kind : SubStageKind
  /-- The id of the sub-stage that runs after it. -/
  next : Option String
  /-- Where it runs, if a mapping says so. -/
  target : Option Target
  status : Record
deriving DecidableEq

/-- A stage of a flow. -/
structure StageNode where
  id : String
  name : String
  category : Category
  /-- The id of the node of its category. -/
  parentId : String
  subStages : List SubStage
  /-- The aggregate of the statuses of its sub-stages. -/
  status : Status
  layout : Layout
deriving DecidableEq

/-- How the sub-stages relate, if there are any. -/
def StageNode.kind (s : StageNode) : Option SubStageKind := s.subStages.head?.map SubStage.kind

/-- A category of a flow. -/
structure CategoryNode where
  id : String
  name : Category
  stageIds : List String
  layout : Layout
deriving DecidableEq

/-- The stage `source` runs before the stage `target`. -/
structure Edge where
  id : String
  source : String
  target : String
deriving DecidableEq

/-- Something odd about a flow that does not keep it from being built. -/
inductive GraphWarning where
  /-- The id of a sub-stage was taken, so it got another one. -/
  | duplicateSubStage (stageId name assignedId : String)
  /-- The overall line names a stage that has no entry. -/
  | outlineStageMissing (category : Category) (stage : String)
  /-- A stage has no sub-stages. -/
  | emptyStage (stageId : String)
deriving DecidableEq

/-- The graph of one flow. -/
structure Graph where
  categories : List CategoryNode
  stages : List StageNode
  edges : List Edge
  warnings : List GraphWarning
deriving DecidableEq, Inhabited

/-- The counts of a graph. -/
structure GraphSummary where
  nodeCount : Nat
  edgeCount : Nat
  categoryCount : Nat
  stageCount : Nat
  subStageCount : Nat
deriving DecidableEq, Inhabited

namespace Graph

/-- Whether the flow has no stages. -/
def isEmpty (g : Graph) : Bool := g.stages.isEmpty

/-- The stage with an id. -/
def stage? (g : Graph) (id : String) : Option StageNode := g.stages.find? fun s => s.id == id

/-- The stage with a name, in a category. -/
def stageNamed? (g : Graph) (c : Category) (name : String) : Option StageNode :=
  g.stages.find? fun s => s.category == c && s.name == name

/-- The stages of a category, in order. -/
def stagesOf (g : Graph) (c : Category) : List StageNode := g.stages.filter fun s => s.category == c

/-- All sub-stages, in order. -/
def subStages (g : Graph) : List SubStage := g.stages.flatMap StageNode.subStages

/-- The number of sub-stages whose id was taken. -/
def duplicateCount (g : Graph) : Nat :=
  g.warnings.countP fun
    | .duplicateSubStage .. => true
    | _ => false

/-- The names of all sub-stages, in order. -/
def subStageNames (g : Graph) : List String := g.subStages.map SubStage.name

/-- A pending record for every sub-stage. -/
def initialStatus (g : Graph) : StatusMap := StatusMap.seed NameMap.empty g.subStageNames

def summary (g : Graph) : GraphSummary where
  nodeCount := g.categories.length + g.stages.length
  edgeCount := g.edges.length
  categoryCount := g.categories.length
  stageCount := g.stages.length
  subStageCount := g.subStages.length

end Graph

end Flowline
