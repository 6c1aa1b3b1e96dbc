import Flowline.Projection

/-!
# Trees

A projected graph as text: a header with the overall status and the progress, one line per
category, stage and sub-stage, indented by depth, and the number of warnings if there are any.
`treeLines` gives the lines, `tree` the text, in which a line feed ends every line.
-/

namespace Flowline.Render

/-- The sign in front of a sub-stage. -/
def marker : Status → String
  | .pending => "·"
  | .running => "▶"
  | .completed => "✓"
  | .failed => "✗"
  | .error => "!"
  | .unknown => "?"

/-- The word for the kind of a stage. -/
def kindLabel : Option SubStageKind → String
  | some kind => kind.name
  | none => "empty"

/-- The first line. -/
def headerLine (name : String) (v : View) : String :=
  name ++ " [" ++ v.status.name ++ "] " ++ v.counts.completed.repr ++ "/" ++ v.counts.total.repr ++
    " completed"

def subStageLine (s : SubStage) : String :=
  "    " ++ marker s.status.status ++ " " ++ s.name ++ "  " ++ s.status.status.name

def stageLine (s : StageNode) : String :=
  "  " ++ s.name ++ " [" ++ s.status.name ++ "] " ++ kindLabel s.kind

/-- A stage and its sub-stages. -/
def stageLines (s : StageNode) : List String := stageLine s :: s.subStages.map subStageLine

/-- A category and its stages. -/
def categoryLines (g : Graph) (c : CategoryNode) : List String :=
  c.name.token :: (g.stagesOf c.name).flatMap stageLines

/-- The last line, if there are warnings. -/
def warningLines (g : Graph) : List String :=
  if g.warnings.isEmpty then [] else [g.warnings.length.repr ++ " warning(s)"]

/-- The lines of the tree of the flow `name`. -/
def treeLines (name : String) (v : View) : List String :=
  headerLine name v :: v.graph.categories.flatMap (categoryLines v.graph) ++ warningLines v.graph

/-- The tree of the flow `name`. -/
def tree (name : String) (v : View) : String := Text.unlines (treeLines name v)

end Flowline.Render
