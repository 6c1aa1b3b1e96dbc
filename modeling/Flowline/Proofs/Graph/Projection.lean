import Flowline.Proofs.Graph.Contents
import Flowline.Proofs.Status.Aggregate
import Flowline.Proofs.Status.Seeding

/-!
# Projecting the statuses that a graph starts with

A graph is built with every sub-stage and every stage pending (`isFresh_of_mem_build`), and that is
what the statuses that it starts with say. So laying them over the graph changes nothing
(`project_initialStatus`).
-/

namespace Flowline.Graph

/-- A stage as it is built: nothing has been heard of it. -/
structure IsFresh (s : StageNode) : Prop where
  status : s.status = .pending
  subStages : ∀ sub ∈ s.subStages, sub.status = Record.pending

section Fresh

variable (mapping : Mapping)

theorem isFresh_makeStage (c : Category) (parentId : String) (index : Nat) (ids : Ids)
    (stage expr : String) :
    IsFresh (makeStage mapping c parentId index ids stage expr).1 where
  status := rfl
  subStages := forall_mem_subStages_makeStage (fun _ _ _ => rfl) parentId index ids

theorem isFresh_makeBlocks (index : Nat) (ids : Ids)
    (entries : List (Category × Table String String)) :
    ∀ b ∈ makeBlocks mapping index ids entries, ∀ s ∈ b.stages, IsFresh s :=
  forall_mem_makeBlocks (fun c _ _ entries _ =>
    forall_mem_makeStages (isFresh_makeStage mapping c _) 0 _ entries) index ids entries

theorem isFresh_of_mem_build {spec : Spec} {s : StageNode}
    (hs : s ∈ (build mapping spec).stages) : IsFresh s := by
  obtain ⟨b, hb, hs⟩ := List.mem_flatMap.1 hs
  exact isFresh_makeBlocks mapping _ _ _ b hb s hs

end Fresh

/-! ## Projection -/

/-- A stage is as it was if the statuses say that its sub-stages are pending. -/
theorem withStatus_eq_self {statuses : StatusMap} {s : StageNode} (h : IsFresh s)
    (hstatuses : ∀ sub ∈ s.subStages, statuses.get? sub.name = some Record.pending) :
    s.withStatus statuses = s := by
  have hsubs : s.subStages.map (SubStage.withStatus statuses) = s.subStages := by
    refine (List.map_congr_left fun sub hsub => ?_).trans (List.map_id _)
    rw [SubStage.withStatus, hstatuses sub hsub, Option.getD_some, ← h.subStages sub hsub]
    rfl
  have haggregate : Status.aggregate (s.subStages.map (·.status.status)) = s.status := by
    rw [h.status]
    refine Status.aggregate_of_forall_pending (List.forall_mem_map.2 fun sub hsub => ?_)
    rw [h.subStages sub hsub]
    rfl
  rw [StageNode.withStatus]
  simp only [hsubs, haggregate]

/-- Laying the statuses that a built graph starts with over it changes nothing. -/
theorem project_initialStatus (mapping : Mapping) (spec : Spec) :
    ((build mapping spec).project (build mapping spec).initialStatus).graph =
      build mapping spec := by
  have hstages : (build mapping spec).stages.map
      (StageNode.withStatus (build mapping spec).initialStatus) = (build mapping spec).stages := by
    refine (List.map_congr_left fun s hs => ?_).trans (List.map_id _)
    refine withStatus_eq_self (isFresh_of_mem_build mapping hs) fun sub hsub => ?_
    have hname : sub.name ∈ (build mapping spec).subStageNames :=
      List.mem_map_of_mem (List.mem_flatMap.2 ⟨s, hs, hsub⟩)
    rw [initialStatus, StatusMap.get?_seed, if_pos hname]
    rfl
  simp only [project, hstages]

end Flowline.Graph
