import Flowline.Proofs.Graph.Apart

/-!
# Flows that grow

The entry of a new stage stands at the end of its category. The stages before it have their ids by
then (`makeStages_append`), and those of the other category are built apart, even if they come after
it. So all nodes of the graph stay as they are, whatever the new stage and its sub-stages are
called: if a name collides, it is the new node that gets a number (`keeps_insertStage`).
-/

namespace Flowline.Graph

variable {mapping : Mapping}

/-- The nodes of the old graph are nodes of the new one. -/
structure Keeps (old new : Graph) : Prop where
  categories : ∀ node ∈ old.categories, ∃ node' ∈ new.categories,
    node'.id = node.id ∧ node'.name = node.name
  /-- A stage is found under its id as it was, with all of its sub-stages. -/
  stages : ∀ s ∈ old.stages, new.stage? s.id = some s
  /-- The sub-stages have the ids, kinds, links and targets that they had. -/
  subStages : old.subStages ⊆ new.subStages

/-! ## One more stage -/

theorem makeStages_append (c : Category) (parentId : String) (index : Nat) (ids : Ids)
    (before after : List (String × String)) :
    let made := makeStages mapping c parentId index ids before
    (makeStages mapping c parentId index ids (before ++ after)).1 =
      made.1 ++ (makeStages mapping c parentId (index + before.length) made.2 after).1 := by
  induction before generalizing index ids with
  | nil => rfl
  | cons entry before ih =>
    obtain ⟨stage, expr⟩ := entry
    have hrest := ih (index + 1) (makeStage mapping c parentId index ids stage expr).2
    rw [Nat.add_assoc, Nat.add_comm 1] at hrest
    exact congrArg (List.cons _) hrest

theorem exists_stagesAlone_concat (mapping : Mapping) (c : Category)
    (entries : List (String × String)) (stage expr : String) :
    ∃ node : StageNode, node.Shows (c, stage, expr) ∧
      stagesAlone mapping c (entries ++ [(stage, expr)]) =
        stagesAlone mapping c entries ++ [node] :=
  ⟨_, shows_makeStage mapping c (categoryId c) _ _ stage expr, makeStages_append c _ 0 _ _ _⟩

/-! ## The grown graph -/

variable {spec : Spec} {c : Category} {stage expr : String}

theorem entries_stagesOf_insertStage (h : stage ∉ (spec.stagesOf c).keys) (c' : Category) :
    ((spec.insertStage c stage expr).stagesOf c').entries =
      (spec.stagesOf c').entries ++ if c = c' then [(stage, expr)] else [] := by
  rw [Spec.stagesOf_insertStage]
  split
  · next hc =>
    subst hc
    exact Table.place_of_notMem _ h
  · exact (List.append_nil _).symm

/-- The category has the new stage at its end, and the other one is as it was. -/
theorem exists_stagesOf_insertStage (mapping : Mapping) (h : stage ∉ (spec.stagesOf c).keys)
    (expr : String) :
    ∃ node : StageNode, node.Shows (c, stage, expr) ∧
      ∀ c', (build mapping (spec.insertStage c stage expr)).stagesOf c' =
        (build mapping spec).stagesOf c' ++ if c = c' then [node] else [] := by
  obtain ⟨node, hshows, hconcat⟩ :=
    exists_stagesAlone_concat mapping c (spec.stagesOf c).entries stage expr
  refine ⟨node, hshows, fun c' => ?_⟩
  rw [stagesOf_build, stagesOf_build, entries_stagesOf_insertStage h]
  split
  · next hc =>
    subst hc
    exact hconcat
  · rw [List.append_nil, List.append_nil]

theorem exists_stage_of_mem_categories {node : CategoryNode}
    (h : node ∈ (build mapping spec).categories) :
    ∃ s ∈ (build mapping spec).stages, s.category = node.name ∧ s.parentId = node.id := by
  obtain ⟨b, hb, rfl⟩ := List.mem_map.1 h
  obtain ⟨s, hs⟩ := List.exists_mem_of_ne_nil _ (stageIds_makeBlocks _ _ _ b hb).2
  obtain ⟨entry, -, hshows⟩ := exists_of_mem_blocks (forall₂_blocks mapping spec) hb
  exact ⟨s, List.mem_flatMap.2 ⟨b, hb, hs⟩, hshows.category_of_mem hs, hshows.parents s hs⟩

/-- Built graphs keep what they have if each category keeps its stages. -/
theorem keeps_of_stagesOf_subset {spec' : Spec}
    (h : ∀ c, (build mapping spec).stagesOf c ⊆ (build mapping spec').stagesOf c) :
    Keeps (build mapping spec) (build mapping spec') := by
  have hstages : (build mapping spec).stages ⊆ (build mapping spec').stages := by
    intro s hs
    have hof : s ∈ (build mapping spec).stagesOf s.category :=
      List.mem_filter.2 ⟨hs, beq_self_eq_true _⟩
    exact (List.mem_filter.1 (h _ hof)).1
  constructor
  · intro node hnode
    obtain ⟨s, hs, hcategory, hparent⟩ := exists_stage_of_mem_categories hnode
    obtain ⟨node', hnode', hname, hid, -⟩ := exists_owner (hstages hs)
    exact ⟨node', hnode', hid.trans hparent, hname.trans hcategory⟩
  · exact fun s hs => stage?_eq_some_iff.2 ⟨hstages hs, rfl⟩
  · intro sub hsub
    obtain ⟨s, hs, hsub⟩ := List.mem_flatMap.1 hsub
    exact List.mem_flatMap.2 ⟨s, hstages hs, hsub⟩

/-- A new stage leaves all nodes of the graph as they are. Its own node stands at the end of its
category, under the id that it asks for. -/
theorem keeps_insertStage (mapping : Mapping) (spec : Spec) (c : Category) (stage expr : String)
    (h : stage ∉ (spec.stagesOf c).keys) :
    let old := build mapping spec
    let new := build mapping (spec.insertStage c stage expr)
    Keeps old new ∧
    ∃ node : StageNode, node.Shows (c, stage, expr) ∧ node.id = stageId c stage ∧
      ∀ c', new.stagesOf c' = old.stagesOf c' ++ if c = c' then [node] else [] := by
  obtain ⟨node, hshows, hstages⟩ := exists_stagesOf_insertStage mapping h expr
  have hnode : node ∈ (build mapping (spec.insertStage c stage expr)).stages := by
    have hof : node ∈ (build mapping (spec.insertStage c stage expr)).stagesOf c := by
      rw [hstages, if_pos rfl]
      exact List.mem_append_right _ (List.mem_singleton_self node)
    exact (List.mem_filter.1 hof).1
  refine ⟨keeps_of_stagesOf_subset fun c' => ?_, node, hshows, ?_, hstages⟩
  · rw [hstages]
    exact List.subset_append_left _ _
  · rw [id_of_mem_stages hnode, hshows.category, hshows.name]

/-- Two sub-stages of one name, and a stage of the other category. -/
def twoNamesakes : Spec :=
  ((Spec.ofOverall "").insertStage .aws "S" "A, A").insertStage .onPrem "T" "B -> C"

/-- A new stage asks for an id that is taken. It gets a number, and the nodes of both categories
stay. -/
theorem keeps_insertStage_twoNamesakes :
    "S-A" ∉ (twoNamesakes.stagesOf .aws).keys ∧
    Keeps (build Mapping.empty twoNamesakes)
      (build Mapping.empty (twoNamesakes.insertStage .aws "S-A" "2")) ∧
    (build Mapping.empty (twoNamesakes.insertStage .aws "S-A" "2")).subStages.map SubStage.id =
      ["substage-AWS-S-A", "substage-AWS-S-A-2", "substage-AWS-S-A-2-2", "substage-On-PREM-T-B",
        "substage-On-PREM-T-C"] := by
  have hnew : "S-A" ∉ (twoNamesakes.stagesOf .aws).keys := by decide
  exact ⟨hnew, (keeps_insertStage Mapping.empty twoNamesakes .aws "S-A" "2" hnew).1, by decide⟩

end Flowline.Graph
