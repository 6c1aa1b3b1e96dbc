import Flowline.Proofs.Graph.Overlay
import Flowline.Render.Tree

/-!
# What a tree shows

A tree shows the statuses of the sub-stages and nothing else of their records
(`tree_project_congr`), so the instants in the records make no difference to it.
-/

namespace Flowline

/-- The statuses show the same status, if not the same record, for each of the names. -/
def StatusMap.AgreeOn (names : List String) (statuses statuses' : StatusMap) : Prop :=
  ∀ name ∈ names, (statuses.shown name).status = (statuses'.shown name).status

namespace Render

variable {statuses statuses' : StatusMap} {g : Graph}

theorem statuses_withStatus (statuses : StatusMap) (subs : List SubStage) :
    (subs.map (SubStage.withStatus statuses)).map (·.status.status) =
      subs.map fun sub => (statuses.shown sub.name).status := by
  rw [List.map_map]
  rfl

theorem kind_withStatus (statuses : StatusMap) (s : StageNode) :
    (s.withStatus statuses).kind = s.kind := by
  unfold StageNode.kind StageNode.withStatus
  dsimp only
  rw [List.head?_map, Option.map_map]
  rfl

/-- A stage has the same status and the same lines. -/
theorem stageLines_withStatus {s : StageNode}
    (h : statuses.AgreeOn (s.subStages.map SubStage.name) statuses') :
    (s.withStatus statuses).status = (s.withStatus statuses').status ∧
      stageLines (s.withStatus statuses) = stageLines (s.withStatus statuses') := by
  have hsubs : ∀ sub ∈ s.subStages,
      (statuses.shown sub.name).status = (statuses'.shown sub.name).status :=
    fun sub hsub => h sub.name (List.mem_map_of_mem hsub)
  have hstatus : (s.withStatus statuses).status = (s.withStatus statuses').status := by
    unfold StageNode.withStatus
    dsimp only
    rw [statuses_withStatus, statuses_withStatus, List.map_congr_left hsubs]
  refine ⟨hstatus, ?_⟩
  have hlines : (s.withStatus statuses).subStages.map subStageLine =
      (s.withStatus statuses').subStages.map subStageLine := by
    unfold StageNode.withStatus
    dsimp only
    rw [List.map_map, List.map_map]
    refine List.map_congr_left fun sub hsub => ?_
    have hsub := hsubs sub hsub
    unfold StatusMap.shown at hsub
    simp only [Function.comp_apply, subStageLine, SubStage.withStatus, hsub]
  rw [stageLines, stageLines, hlines, stageLine, stageLine, hstatus, kind_withStatus,
    kind_withStatus]
  rfl

/-- Two views of a graph whose sub-stages have the same statuses look alike. -/
theorem tree_project_congr (name : String) (h : statuses.AgreeOn g.subStageNames statuses') :
    tree name (g.project statuses) = tree name (g.project statuses') := by
  have hstages : ∀ s ∈ g.stages, statuses.AgreeOn (s.subStages.map SubStage.name) statuses' := by
    intro s hs n hn
    obtain ⟨sub, hsub, rfl⟩ := List.mem_map.1 hn
    exact h _ (List.mem_map_of_mem (List.mem_flatMap.2 ⟨s, hs, hsub⟩))
  have hcounts : (g.project statuses).counts = (g.project statuses').counts := by
    have hview : ∀ map : StatusMap, (g.project map).counts =
        StatusCounts.ofList (g.subStages.map fun sub => (map.shown sub.name).status) := by
      intro map
      rw [← statuses_withStatus, ← Graph.subStages_project]
      rfl
    rw [hview, hview, List.map_congr_left fun sub hsub => h _ (List.mem_map_of_mem hsub)]
  have hstatus : (g.project statuses).status = (g.project statuses').status := by
    unfold Graph.project
    dsimp only
    rw [List.map_map, List.map_map]
    exact congrArg Status.aggregate
      (List.map_congr_left fun s hs => (stageLines_withStatus (hstages s hs)).1)
  have hcategory : ∀ c, categoryLines (g.project statuses).graph c =
      categoryLines (g.project statuses').graph c := by
    intro c
    have hview : ∀ map : StatusMap, (g.project map).graph.stagesOf c.name =
        (g.stagesOf c.name).map (StageNode.withStatus map) := fun map => List.filter_map
    rw [categoryLines, categoryLines, hview, hview, List.flatMap_map, List.flatMap_map]
    refine congrArg _ (List.flatMap_congr fun s hs => ?_)
    exact (stageLines_withStatus (hstages s (List.mem_of_mem_filter hs))).2
  rw [tree, tree, treeLines, treeLines, headerLine, headerLine, hstatus, hcounts]
  refine congrArg (fun lines => Text.unlines (_ :: lines ++ _)) ?_
  exact List.flatMap_congr fun c _ => hcategory c

end Render

end Flowline
