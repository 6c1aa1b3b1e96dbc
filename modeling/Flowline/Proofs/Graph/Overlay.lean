import Flowline.Proofs.Graph.Projection
import Flowline.Proofs.Status.Aggregate

/-!
# Laying statuses over a graph

`Graph.bare` takes from a graph what has been heard of its sub-stages. Laying statuses over a graph
leaves its bare form as it was (`bare_project`), and looks at nothing else of it (`project_bare`).
So what an earlier projection left in the graph never shows through a later one.

* `project_overlays`: what a projection shows and what it depends on, for every graph; and that a
  graph as it is built is what its initial statuses show.
* `status_project`: the status of the whole, which is made in two levels, from the counts of the
  sub-stages. A stage without sub-stages is what tells the two levels from one.
-/

namespace Flowline

/-- The record that the statuses show for a name. Nothing is known of a name that they lack. -/
def StatusMap.shown (statuses : StatusMap) (name : String) : Record :=
  (statuses.get? name).getD (Record.ofStatus .unknown)

/-! ## What nothing is said of -/

/-- The sub-stage without its record. -/
def SubStage.bare (s : SubStage) : SubStage := { s with status := Record.pending }

/-- The stage without its status and the records of its sub-stages. -/
def StageNode.bare (s : StageNode) : StageNode :=
  { s with subStages := s.subStages.map SubStage.bare, status := .pending }

namespace Graph

/-- The graph without statuses: its categories, edges and warnings, and all of its stages and
sub-stages that is not a status. -/
def bare (g : Graph) : Graph := { g with stages := g.stages.map StageNode.bare }

/-- The view is the graph with the records of the statuses laid over it. -/
structure Overlays (g : Graph) (statuses : StatusMap) (v : View) : Prop where
  /-- Nothing differs but the records of sub-stages and the statuses of stages. -/
  bare : v.graph.bare = g.bare
  /-- A sub-stage has the record of its name, or a bare one that says that it is unknown. -/
  records : ∀ sub ∈ v.graph.subStages, sub.status = statuses.shown sub.name
  /-- Every sub-stage is counted once. -/
  total : v.counts.total = g.subStages.length

section Project

variable (g : Graph) (statuses : StatusMap)

theorem bare_project : (g.project statuses).graph.bare = g.bare := by
  have hstages : ∀ s : StageNode, (s.withStatus statuses).bare = s.bare := by
    intro s
    simp only [StageNode.bare, StageNode.withStatus, List.map_map]
    rfl
  simp only [bare, project, List.map_map, Function.comp_def, hstages]

theorem project_bare : g.bare.project statuses = g.project statuses := by
  have hstages : ∀ s : StageNode, s.bare.withStatus statuses = s.withStatus statuses := by
    intro s
    simp only [StageNode.bare, StageNode.withStatus, List.map_map]
    rfl
  simp only [bare, project, List.map_map, Function.comp_def, hstages]

/-- Of two projections one after the other only the second one shows. -/
theorem project_project (statuses' : StatusMap) :
    (g.project statuses).graph.project statuses' = g.project statuses' := by
  rw [← project_bare, bare_project, project_bare]

theorem subStages_project :
    (g.project statuses).graph.subStages = g.subStages.map (SubStage.withStatus statuses) := by
  rw [subStages, project, List.flatMap_map, subStages, List.map_flatMap]
  rfl

/-- The records that are shown, in the order of the sub-stages. -/
theorem map_status_project :
    (g.project statuses).graph.subStages.map SubStage.status =
      g.subStageNames.map statuses.shown := by
  rw [subStages_project, subStageNames, List.map_map, List.map_map]
  rfl

/-- A projection depends on what is shown for the names that the graph declares, and on all that. -/
theorem project_eq_iff (statuses' : StatusMap) :
    g.project statuses = g.project statuses' ↔
      ∀ name ∈ g.subStageNames, statuses.shown name = statuses'.shown name := by
  constructor
  · intro h
    have hrecords := map_status_project g statuses
    rw [h, map_status_project] at hrecords
    exact fun name hname => (List.map_inj_left.1 hrecords name hname).symm
  · intro h
    have hstages : g.stages.map (StageNode.withStatus statuses) =
        g.stages.map (StageNode.withStatus statuses') := by
      refine List.map_congr_left fun s hs => ?_
      have hsubs : s.subStages.map (SubStage.withStatus statuses) =
          s.subStages.map (SubStage.withStatus statuses') := by
        refine List.map_congr_left fun sub hsub => ?_
        have hname : sub.name ∈ g.subStageNames :=
          List.mem_map_of_mem (List.mem_flatMap.2 ⟨s, hs, hsub⟩)
        exact congrArg (fun r => { sub with status := r }) (h sub.name hname)
      simp only [StageNode.withStatus, hsubs]
    simp only [project, hstages]

theorem overlays_project : Overlays g statuses (g.project statuses) where
  bare := bare_project g statuses
  records := by
    rw [subStages_project]
    refine List.forall_mem_map.2 fun sub _ => rfl
  total := by
    have hcounts : (g.project statuses).counts =
        StatusCounts.ofList ((g.project statuses).graph.subStages.map (·.status.status)) := rfl
    rw [hcounts, StatusCounts.total_ofList, List.length_map, subStages_project, List.length_map]

end Project

/-- All sub-stages of a graph are pending as it is built, and so is the whole. -/
theorem project_build (mapping : Mapping) (spec : Spec) :
    (build mapping spec).project (build mapping spec).initialStatus =
      ⟨build mapping spec, ⟨(build mapping spec).subStages.length, 0, 0, 0, 0, 0⟩, .pending⟩ := by
  have hgraph := project_initialStatus mapping spec
  have hview : (build mapping spec).project (build mapping spec).initialStatus =
      let shown := ((build mapping spec).project (build mapping spec).initialStatus).graph
      ⟨shown, StatusCounts.ofList (shown.subStages.map (·.status.status)),
        Status.aggregate (shown.stages.map StageNode.status)⟩ := rfl
  have hsubs : (build mapping spec).subStages.map (·.status.status) =
      List.replicate (build mapping spec).subStages.length .pending := by
    refine List.eq_replicate_iff.2 ⟨List.length_map _, List.forall_mem_map.2 fun sub hsub => ?_⟩
    obtain ⟨s, hs, hsub⟩ := List.mem_flatMap.1 hsub
    rw [(isFresh_of_mem_build mapping hs).subStages sub hsub]
    rfl
  have hstages : ∀ status ∈ (build mapping spec).stages.map StageNode.status, status = .pending :=
    List.forall_mem_map.2 fun s hs => (isFresh_of_mem_build mapping hs).status
  rw [hview, hgraph]
  simp only [hsubs, StatusCounts.ofList_replicate_pending,
    Status.aggregate_of_forall_pending hstages]

/-- A projection shows the records of the statuses in the graph and changes nothing else of it. It
depends on what the statuses show for the names that the graph declares, and not on what an earlier
projection left in the graph. The statuses that a built graph starts with leave it as it is. -/
theorem project_overlays :
    (∀ (g : Graph) (statuses statuses' : StatusMap),
      Overlays g statuses (g.project statuses) ∧
      (g.project statuses = g.project statuses' ↔
        ∀ name ∈ g.subStageNames, statuses.shown name = statuses'.shown name) ∧
      (g.project statuses).graph.project statuses' = g.project statuses') ∧
    ∀ (mapping : Mapping) (spec : Spec),
      (build mapping spec).project (build mapping spec).initialStatus =
        ⟨build mapping spec, ⟨(build mapping spec).subStages.length, 0, 0, 0, 0, 0⟩, .pending⟩ := by
  refine ⟨fun g statuses statuses' => ?_, project_build⟩
  exact ⟨overlays_project g statuses, project_eq_iff g statuses statuses',
    project_project g statuses statuses'⟩

/-! ## The status of the whole -/

/-- The statuses of the sub-stages, stage by stage. -/
def statusGroups (g : Graph) : List (List Status) :=
  g.stages.map fun s => s.subStages.map (·.status.status)

section Groups

variable (g : Graph) (statuses : StatusMap)

theorem flatten_statusGroups : g.statusGroups.flatten = g.subStages.map (·.status.status) := by
  rw [statusGroups, subStages, List.map_flatMap, List.flatMap_def]

theorem statusGroups_project :
    (g.project statuses).graph.statusGroups =
      g.stages.map fun s =>
        (s.subStages.map (SubStage.withStatus statuses)).map (·.status.status) := by
  rw [statusGroups, project, List.map_map]
  rfl

theorem nil_mem_statusGroups_project :
    [] ∈ (g.project statuses).graph.statusGroups ↔ ∃ s ∈ g.stages, s.subStages = [] := by
  simp only [statusGroups_project, List.mem_map, List.map_eq_nil_iff]

theorem statusGroups_project_eq_nil :
    (g.project statuses).graph.statusGroups = [] ↔ g.stages = [] := by
  rw [statusGroups_project, List.map_eq_nil_iff]

/-- The whole is aggregated from the stages, and these from their sub-stages. -/
theorem status_project_eq :
    (g.project statuses).status =
      Status.aggregate ((g.project statuses).graph.statusGroups.map Status.aggregate) := by
  rw [statusGroups_project, List.map_map]
  show Status.aggregate ((g.stages.map _).map StageNode.status) = _
  rw [List.map_map]
  rfl

end Groups

/-- The status of the whole from the counts of the sub-stages. It is what the sub-stages are
together, in any order and with any repetition, unless all of them are completed and there is a
stage besides that has none. -/
theorem status_project (g : Graph) (statuses : StatusMap) :
    let v := g.project statuses
    v.status =
      (if 0 < v.counts.failed then .failed
      else if 0 < v.counts.error then .error
      else if 0 < v.counts.running then .running
      else if g.stages ≠ [] ∧ (∀ s ∈ g.stages, s.subStages ≠ []) ∧
          v.counts.completed = v.counts.total then .completed
      else .pending) ∧
    v.status ≠ .unknown ∧
    ∀ parts : List Status,
      (∀ status, status ∈ parts ↔ ∃ sub ∈ v.graph.subStages, sub.status.status = status) →
        (v.status = Status.aggregate parts ↔
          ¬ (g.subStages ≠ [] ∧ v.counts.completed = v.counts.total ∧
            ∃ s ∈ g.stages, s.subStages = [])) := by
  intro v
  have hcounts : v.counts = StatusCounts.ofList v.graph.statusGroups.flatten := by
    rw [flatten_statusGroups]
    rfl
  have hcompleted : v.counts.completed = v.counts.total ↔
      ∀ s ∈ v.graph.statusGroups.flatten, s = .completed := by
    rw [← StatusCounts.completed_eq_total_iff, ← hcounts]
  have hstatus : v.status = Status.aggregate (v.graph.statusGroups.map Status.aggregate) :=
    status_project_eq g statuses
  refine ⟨?_, ?_, fun parts hparts => ?_⟩
  · have hfailed : 0 < v.counts.failed ↔ .failed ∈ v.graph.statusGroups.flatten := by
      rw [hcounts]
      exact List.count_pos_iff
    have herror : 0 < v.counts.error ↔ .error ∈ v.graph.statusGroups.flatten :=
      hcounts ▸ List.count_pos_iff
    have hrunning : 0 < v.counts.running ↔ .running ∈ v.graph.statusGroups.flatten :=
      hcounts ▸ List.count_pos_iff
    have hstages : g.stages = [] ↔ v.graph.statusGroups = [] :=
      (statusGroups_project_eq_nil g statuses).symm
    have hfull : (∀ s ∈ g.stages, s.subStages ≠ []) ↔ [] ∉ v.graph.statusGroups := by
      rw [nil_mem_statusGroups_project, not_exists]
      exact forall_congr' fun s => not_and.symm
    rw [hstatus, Status.aggregate_map_aggregate]
    simp only [hfailed, herror, hrunning, hcompleted, hstages, hfull, ne_eq]
  · rw [hstatus]
    exact Status.aggregate_ne_unknown
  · have hsame : Status.aggregate parts = Status.aggregate v.graph.statusGroups.flatten := by
      refine Status.aggregate_congr fun status => ?_
      rw [hparts, flatten_statusGroups, List.mem_map]
    have hnone : v.graph.statusGroups.flatten = [] ↔ g.subStages = [] := by
      rw [flatten_statusGroups, List.map_eq_nil_iff, subStages_project, List.map_eq_nil_iff]
    rw [hstatus, hsame, Status.aggregate_map_aggregate_eq_iff, hcompleted, ne_eq, ne_eq, hnone,
      nil_mem_statusGroups_project]

/-- A flow whose second stage has no sub-stages. -/
def halfEmpty : Graph :=
  build Mapping.empty (((Spec.ofOverall "").insertStage .aws "S" "A, B").insertStage .onPrem "T" "")

/-- The sub-stages of `halfEmpty` as completed. -/
def halfEmptyDone : StatusMap :=
  NameMap.ofList [("A", Record.ofStatus .completed), ("B", Record.ofStatus .completed)]

/-- All sub-stages of `halfEmpty` are completed, and the flow is not. -/
theorem status_project_halfEmpty :
    (halfEmpty.project halfEmptyDone).status = .pending ∧
    (∀ status, status ∈ [Status.completed, .completed, .completed] ↔
      ∃ sub ∈ (halfEmpty.project halfEmptyDone).graph.subStages, sub.status.status = status) ∧
    (halfEmpty.project halfEmptyDone).status ≠
      Status.aggregate [.completed, .completed, .completed] := by
  have hstatus : (halfEmpty.project halfEmptyDone).status = .pending := by decide
  have hparts : ∀ status, status ∈ [Status.completed, .completed, .completed] ↔
      ∃ sub ∈ (halfEmpty.project halfEmptyDone).graph.subStages, sub.status.status = status := by
    intro status
    cases status <;> decide
  refine ⟨hstatus, hparts, fun heq => ?_⟩
  exact ((status_project halfEmpty halfEmptyDone).2.2 _ hparts).1 heq (by decide)

end Graph

end Flowline
