import Flowline.Command.Failure
import Flowline.Definition.Scan
import Flowline.Render.Tree
import Flowline.Store

/-!
# Checking a registration

What there is to say about a registration that can be read: the lines of its definition that were
dropped, the warnings of its graph, and the counts.
-/

namespace Flowline.Command

/-- The name of a reason in a log. -/
def reasonWord : Definition.DropReason → String
  | .outsideSection => "OutsideSection"
  | .overallAlreadyCaptured => "OverallAlreadyCaptured"
  | .stageBeforeCategory => "StageBeforeCategory"
  | .unrecognized => "Unrecognized"

/-- What is said of a line that was dropped. -/
def droppedLine (d : Definition.Dropped) : String :=
  "line " ++ d.line.number.repr ++ " ignored (" ++ reasonWord d.reason ++ "): " ++ d.line.text

/-- What is said of a warning. -/
def warningText : GraphWarning → String
  | .duplicateSubStage stageId name assignedId =>
    "duplicate sub-stage '" ++ name ++ "' in " ++ stageId ++ " renamed to " ++ assignedId
  | .outlineStageMissing category stage =>
    category.token ++ " stage '" ++ stage ++ "' in overall flow has no sub-stages"
  | .emptyStage stageId => "stage " ++ stageId ++ " has no sub-stages"

/-- The lines of a definition that were dropped. -/
def droppedLines : FlowDefinition → List Definition.Dropped
  | .text s => (Definition.read s).dropped
  | .structured .. => []

/-- Everything that may have to be mended. -/
def complaints (r : Registration) : List String :=
  (droppedLines r.definition).map droppedLine ++ r.graph.warnings.map warningText

/-- The number of sub-stages that have a target. -/
def mappedCount (g : Graph) : Nat := g.subStages.countP fun s => s.target.isSome

/-- The counts of a registration. -/
def countLines (r : Registration) : List String :=
  let s := r.graph.summary
  ["✓ Flow: " ++ r.flowName,
   "✓ " ++ s.categoryCount.repr ++ " categories, " ++ s.stageCount.repr ++ " stages, " ++
     s.subStageCount.repr ++ " sub-stages, " ++ s.edgeCount.repr ++ " edges",
   "✓ Mappings: " ++ r.mapping.aws.size.repr ++ " aws, " ++ r.mapping.onPrem.size.repr ++
     " on-prem (" ++ (mappedCount r.graph).repr ++ "/" ++ s.subStageCount.repr ++
     " sub-stages mapped)"] ++
  Render.warningLines r.graph

end Flowline.Command
