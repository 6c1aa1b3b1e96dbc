import Flowline.Json.Record
import Flowline.Projection
import Flowline.Status.Format

/-!
# Graphs as JSON

How graphs, summaries and projected graphs are written as JSON and read from it. The members of a
projected graph's own graph stand beside its counts and its status; since their form is known only
once those are read, they are kept whole until the end.
-/

namespace Flowline

open Json

/-! ## Writing -/

def Category.toJson (c : Category) : Json := .text c.token

def SubStageKind.toJson (k : SubStageKind) : Json := .text k.name

def Layout.toJson (l : Layout) : Json :=
  .object
    ([("x", .int l.x), ("y", .int l.y)] ++
      Json.memberIfSome "width" Json.nat l.width ++
      Json.memberIfSome "height" Json.nat l.height)

/-- The members of the ids of a process. -/
def OnPremIds.toMembers (ids : OnPremIds) : List (String × Json) :=
  [("bpf_id", .int ids.bpfId), ("process_id", .int ids.processId)]

def OnPremIds.toJson (ids : OnPremIds) : Json := .object ids.toMembers

def Target.toJson : Target → Json
  | dag dagId => .object [("kind", .text "dag"), ("dag_id", .text dagId)]
  | onPrem ids => .object (("kind", .text "on_prem") :: ids.toMembers)

def SubStage.toJson (s : SubStage) : Json :=
  .object
    ([("id", .text s.id), ("name", .text s.name), ("kind", s.kind.toJson)] ++
      Json.memberIfSome "next" Json.text s.next ++
      Json.memberIfSome "target" Target.toJson s.target ++
      [("status", s.status.toJson)])

def StageNode.toJson (s : StageNode) : Json :=
  .object
    [("id", .text s.id), ("name", .text s.name), ("category", s.category.toJson),
     ("parent_id", .text s.parentId), ("sub_stages", .list (s.subStages.map SubStage.toJson)),
     ("status", s.status.toJson), ("layout", s.layout.toJson)]

def CategoryNode.toJson (c : CategoryNode) : Json :=
  .object
    [("id", .text c.id), ("name", c.name.toJson), ("stage_ids", .list (c.stageIds.map .text)),
     ("layout", c.layout.toJson)]

def Edge.toJson (e : Edge) : Json :=
  .object [("id", .text e.id), ("source", .text e.source), ("target", .text e.target)]

def GraphWarning.toJson : GraphWarning → Json
  | duplicateSubStage stageId name assignedId =>
    .object
      [("kind", .text "duplicate_sub_stage"), ("stage_id", .text stageId), ("name", .text name),
       ("assigned_id", .text assignedId)]
  | outlineStageMissing category stage =>
    .object [("kind", .text "outline_stage_missing"), ("category", category.toJson),
      ("stage", .text stage)]
  | emptyStage stageId => .object [("kind", .text "empty_stage"), ("stage_id", .text stageId)]

/-- The members of a graph. Warnings are left out if there are none. -/
def Graph.toMembers (g : Graph) : List (String × Json) :=
  [("categories", .list (g.categories.map CategoryNode.toJson)),
   ("stages", .list (g.stages.map StageNode.toJson)),
   ("edges", .list (g.edges.map Edge.toJson))] ++
  if g.warnings.isEmpty then [] else [("warnings", .list (g.warnings.map GraphWarning.toJson))]

def Graph.toJson (g : Graph) : Json := .object g.toMembers

def GraphSummary.toJson (s : GraphSummary) : Json :=
  .object
    [("node_count", .nat s.nodeCount), ("edge_count", .nat s.edgeCount),
     ("category_count", .nat s.categoryCount), ("stage_count", .nat s.stageCount),
     ("sub_stage_count", .nat s.subStageCount)]

def StatusCounts.toJson (c : StatusCounts) : Json :=
  .object
    [("pending", .nat c.pending), ("running", .nat c.running), ("completed", .nat c.completed),
     ("failed", .nat c.failed), ("error", .nat c.error), ("unknown", .nat c.unknown)]

def View.toJson (v : View) : Json :=
  .object (v.graph.toMembers ++ [("counts", v.counts.toJson), ("status", v.status.toJson)])

/-! ## Reading -/

/-- The categories by their tokens. -/
def Category.variants : List (String × Category) := Category.all.map fun c => (c.token, c)

def Category.reader : Reader Category := Reader.variant Category.variants

def SubStageKind.reader : Reader SubStageKind :=
  Reader.variant (SubStageKind.all.map fun k => (k.name, k))

def Layout.reader : Reader Layout :=
  (Reader.record "struct LayoutHints"
    (.cons (.required "x" Reader.i32)
    (.cons (.required "y" Reader.i32)
    (.cons (.withDefault "width" Reader.u32.optional none)
    (.cons (.withDefault "height" Reader.u32.optional none) .nil))))).map
    fun (x, y, width, height, ()) => ⟨x, y, width, height⟩

def OnPremIds.reader : Reader OnPremIds :=
  (Reader.record "struct OnPremTarget"
    (.cons (.required "bpf_id" Reader.i64)
    (.cons (.required "process_id" Reader.i64) .nil))).map
    fun (bpfId, processId, ()) => ⟨bpfId, processId⟩

def Target.reader : Reader Target :=
  Reader.tagged "ExecutionTarget"
    [("dag",
      (Reader.record "struct variant ExecutionTarget::Dag"
        (.cons (.required "dag_id" Reader.text) .nil)).map fun (dagId, ()) => .dag dagId),
     ("on_prem", OnPremIds.reader.map .onPrem)]

def SubStage.reader : Reader SubStage :=
  (Reader.record "struct SubStageDescriptor"
    (.cons (.required "id" Reader.text)
    (.cons (.required "name" Reader.text)
    (.cons (.required "kind" SubStageKind.reader)
    (.cons (.withDefault "next" Reader.text.optional none)
    (.cons (.withDefault "target" Target.reader.optional none)
    (.cons (.required "status" Record.reader) .nil))))))).map
    fun (id, name, kind, next, target, status, ()) => ⟨id, name, kind, next, target, status⟩

def StageNode.reader : Reader StageNode :=
  (Reader.record "struct StageNode"
    (.cons (.required "id" Reader.text)
    (.cons (.required "name" Reader.text)
    (.cons (.required "category" Category.reader)
    (.cons (.required "parent_id" Reader.text)
    (.cons (.required "sub_stages" SubStage.reader.list)
    (.cons (.required "status" Status.reader)
    (.cons (.required "layout" Layout.reader) .nil)))))))).map
    fun (id, name, category, parentId, subStages, status, layout, ()) =>
      ⟨id, name, category, parentId, subStages, status, layout⟩

def CategoryNode.reader : Reader CategoryNode :=
  (Reader.record "struct CategoryNode"
    (.cons (.required "id" Reader.text)
    (.cons (.required "name" Category.reader)
    (.cons (.required "stage_ids" Reader.text.list)
    (.cons (.required "layout" Layout.reader) .nil))))).map
    fun (id, name, stageIds, layout, ()) => ⟨id, name, stageIds, layout⟩

def Edge.reader : Reader Edge :=
  (Reader.record "struct FlowEdge"
    (.cons (.required "id" Reader.text)
    (.cons (.required "source" Reader.text)
    (.cons (.required "target" Reader.text) .nil)))).map
    fun (id, source, target, ()) => ⟨id, source, target⟩

def GraphWarning.reader : Reader GraphWarning :=
  Reader.tagged "GraphWarning"
    [("duplicate_sub_stage",
      (Reader.record "struct variant GraphWarning::DuplicateSubStage"
        (.cons (.required "stage_id" Reader.text)
        (.cons (.required "name" Reader.text)
        (.cons (.required "assigned_id" Reader.text) .nil)))).map
        fun (stageId, name, assignedId, ()) => .duplicateSubStage stageId name assignedId),
     ("outline_stage_missing",
      (Reader.record "struct variant GraphWarning::OutlineStageMissing"
        (.cons (.required "category" Category.reader)
        (.cons (.required "stage" Reader.text) .nil))).map
        fun (category, stage, ()) => .outlineStageMissing category stage),
     ("empty_stage",
      (Reader.record "struct variant GraphWarning::EmptyStage"
        (.cons (.required "stage_id" Reader.text) .nil)).map
        fun (stageId, ()) => .emptyStage stageId)]

/-- The fields of a graph. -/
def Graph.fields : Fields [List CategoryNode, List StageNode, List Edge, List GraphWarning] :=
  .cons (.required "categories" CategoryNode.reader.list)
  (.cons (.required "stages" StageNode.reader.list)
  (.cons (.required "edges" Edge.reader.list)
  (.cons (.withDefault "warnings" GraphWarning.reader.list []) .nil)))

/-- The graph with the values of its fields. -/
def Graph.ofValues :
    Values [List CategoryNode, List StageNode, List Edge, List GraphWarning] → Graph :=
  fun (categories, stages, edges, warnings, ()) => ⟨categories, stages, edges, warnings⟩

def Graph.reader : Reader Graph :=
  (Reader.record "struct FlowGraph" Graph.fields).map Graph.ofValues

def StatusCounts.reader : Reader StatusCounts :=
  (Reader.record "struct StatusCounts"
    (.cons (.required "pending" Reader.usize)
    (.cons (.required "running" Reader.usize)
    (.cons (.required "completed" Reader.usize)
    (.cons (.required "failed" Reader.usize)
    (.cons (.required "error" Reader.usize)
    (.cons (.required "unknown" Reader.usize) .nil))))))).map
    fun (pending, running, completed, failed, error, unknown, ()) =>
      ⟨pending, running, completed, failed, error, unknown⟩

/-- The fields of a projected graph beside those of the graph. -/
def View.ownFields : Fields [StatusCounts, Status] :=
  .cons (.required "counts" StatusCounts.reader) (.cons (.required "status" Status.reader) .nil)

/-- Reads a projected graph: its own fields at once, all other members whole. Those that belong to
the graph are read again at the end. -/
def View.reader : Reader View := fun mode node =>
  match node with
  | .object members => do
    let mode ← mode.enter
    let (slots, others) ← View.ownFields.readBeside mode members View.ownFields.noSlots
    let (counts, status, ()) ← View.ownFields.finish slots
    let slots ← Graph.fields.readMembers mode.again others Graph.fields.noSlots
    let values ← Graph.fields.finish slots
    return ⟨Graph.ofValues values, counts, status⟩
  | node => wrongType "struct AnnotatedFlowGraph" node

end Flowline
