import Flowline.Graph.Basic
import Flowline.Graph.Ids
import Flowline.Spec.Outline

/-!
# Building the graph of a flow

`Graph.build` makes the graph of a specification. Categories without stages are left out. Nodes
get their ids in the order of the document, category before stages and stage before sub-stages,
from one supply, so no two nodes share an id. Edges run from each stage to the next, inside a
category and from the last stage of a category to the first of the next one. The overall line
changes nothing but the warnings.
-/

namespace Flowline.Graph

/-! ## Ids -/

/-- The id that a category asks for. -/
def categoryId (c : Category) : String := "category-" ++ c.token

/-- The id that a stage asks for. -/
def stageId (c : Category) (stage : String) : String := "stage-" ++ c.token ++ "-" ++ stage

/-- The id that a sub-stage asks for. -/
def subStageId (c : Category) (stage name : String) : String :=
  "substage-" ++ c.token ++ "-" ++ stage ++ "-" ++ name

def edgeId (source target : String) : String := "edge-" ++ source ++ "-" ++ target

/-! ## Layout -/

/-- A coordinate as 32 bits hold it: what is too great wraps around. -/
def wrapped (n : Int) : Int := n.bmod 0x100000000

/-- Where the category number `index` is drawn. -/
def categoryLayout (index : Nat) : Layout := ⟨wrapped (100 + 600 * index), 100, some 500, some 400⟩

/-- Where the stage number `index` of a category is drawn. -/
def stageLayout (index : Nat) : Layout := ⟨wrapped (50 + 150 * index), 80, none, none⟩

/-! ## Stages -/

/-- The sub-stages with the names, not yet linked, and the ids in use after them. -/
def makeSubStages (mapping : Mapping) (c : Category) (stage : String) (kind : SubStageKind) :
    Ids → List String → List SubStage × Ids
  | ids, [] => ([], ids)
  | ids, name :: names =>
    let (id, ids) := ids.claim (subStageId c stage name)
    let (rest, ids) := makeSubStages mapping c stage kind ids names
    (⟨id, name, kind, none, mapping.targetFor c stage name, Record.pending⟩ :: rest, ids)

/-- Links each sub-stage to the one after it. -/
def linkNext : List SubStage → List SubStage
  | a :: b :: rest => { a with next := some b.id } :: linkNext (b :: rest)
  | rest => rest

/-- Links the sub-stages that run one after the other. -/
def link (kind : SubStageKind) (subs : List SubStage) : List SubStage :=
  if kind = .sequential then linkNext subs else subs

/-- The node of the stage number `index` of a category, and the ids in use after it. -/
def makeStage (mapping : Mapping) (c : Category) (parentId : String) (index : Nat) (ids : Ids)
    (stage expr : String) : StageNode × Ids :=
  let (id, ids) := ids.claim (stageId c stage)
  let (kind, names) := deriveSubStages expr
  let (subs, ids) := makeSubStages mapping c stage kind ids names
  (⟨id, stage, c, parentId, link kind subs, .pending, stageLayout index⟩, ids)

/-- The nodes of the stages from number `index` on, and the ids in use after them. -/
def makeStages (mapping : Mapping) (c : Category) (parentId : String) :
    Nat → Ids → List (String × String) → List StageNode × Ids
  | _, ids, [] => ([], ids)
  | index, ids, (stage, expr) :: entries =>
    let (node, ids) := makeStage mapping c parentId index ids stage expr
    let (rest, ids) := makeStages mapping c parentId (index + 1) ids entries
    (node :: rest, ids)

/-! ## Categories -/

/-- The nodes of a category with its stages. -/
structure Block where
  category : CategoryNode
  stages : List StageNode

/-- The nodes of the categories from number `index` on. Categories without stages get none. -/
def makeBlocks (mapping : Mapping) :
    Nat → Ids → List (Category × Table String String) → List Block
  | _, _, [] => []
  | index, ids, (c, entries) :: rest =>
    if entries.isEmpty then makeBlocks mapping index ids rest
    else
      let (id, ids) := ids.claim (categoryId c)
      let (stages, ids) := makeStages mapping c id 0 ids entries.entries
      ⟨⟨id, c, stages.map StageNode.id, categoryLayout index⟩, stages⟩ ::
        makeBlocks mapping (index + 1) ids rest

/-! ## Edges -/

def edge (source target : String) : Edge := ⟨edgeId source target, source, target⟩

/-- An edge from each stage to the next one. -/
def edgesAlong : List String → List Edge
  | a :: b :: rest => edge a b :: edgesAlong (b :: rest)
  | _ => []

/-- An edge from the last stage of each category to the first of the next one. -/
def edgesAcross : List CategoryNode → List Edge
  | a :: b :: rest =>
    (match a.stageIds.getLast?, b.stageIds.head? with
      | some last, some first => [edge last first]
      | _, _ => []) ++ edgesAcross (b :: rest)
  | _ => []

/-- The edges inside the categories, then those between them. -/
def edgesOf (categories : List CategoryNode) : List Edge :=
  (categories.flatMap fun c => edgesAlong c.stageIds) ++ edgesAcross categories

/-! ## Warnings -/

/-- What is odd about the ids of a stage's sub-stages, and about having none. -/
def stageWarnings (s : StageNode) : List GraphWarning :=
  (s.subStages.filterMap fun sub =>
    if sub.id = subStageId s.category s.name sub.name then none
    else some (.duplicateSubStage s.id sub.name sub.id)) ++
  if s.subStages.isEmpty then [.emptyStage s.id] else []

/-- The stages that the overall line names and that have no entry. -/
def outlineWarnings (spec : Spec) : List GraphWarning :=
  spec.outline.flatMap fun group =>
    (group.stages.filter fun stage => !(spec.stagesOf group.category).contains stage).map
      (.outlineStageMissing group.category)

/-! ## The graph -/

/-- The graph of a specification, with the targets that a mapping gives. -/
def build (mapping : Mapping) (spec : Spec) : Graph :=
  let blocks := makeBlocks mapping 0 Ids.none spec.subStages.entries
  let categories := blocks.map Block.category
  let stages := blocks.flatMap Block.stages
  ⟨categories, stages, edgesOf categories, stages.flatMap stageWarnings ++ outlineWarnings spec⟩

end Flowline.Graph
