import Flowline.Proofs.Graph.NodeIds

/-!
# The edges form one path

`edgesOf` lists the edges inside the categories first and those between neighbouring categories
after them. Taken together they are the steps along the ids of all stages:

* `ends_edgesOf_perm`: for categories that all have stages, by induction on the categories. The
  edge from one category to the next is the step where the two lists of ids meet
  (`steps_append`). A category without stages would break the chain, but the builder makes none
  (`stageIds_makeBlocks`).
* `edges_path`: the edges of a built graph, and what follows for their number, their ends and the
  summary.
-/

namespace Flowline

/-- The pairs of neighbours in a list. -/
def steps {α : Type} (l : List α) : List (α × α) := l.zip l.tail

/-- The stages that an edge connects. -/
def Edge.ends (e : Edge) : String × String := (e.source, e.target)

/-! ## Neighbours -/

section Steps

variable {α : Type}

theorem steps_cons_cons (a b : α) (l : List α) : steps (a :: b :: l) = (a, b) :: steps (b :: l) :=
  rfl

/-- Where two lists meet there is one more step. -/
theorem steps_append {xs ys : List α} (hx : xs ≠ []) (hy : ys ≠ []) :
    steps (xs ++ ys) = steps xs ++ (xs.getLast hx, ys.head hy) :: steps ys := by
  induction xs with
  | nil => exact absurd rfl hx
  | cons a xs ih =>
    cases xs with
    | nil =>
      obtain ⟨b, ys, rfl⟩ := List.exists_cons_of_ne_nil hy
      rfl
    | cons b xs =>
      rw [List.getLast_cons (List.cons_ne_nil b xs)]
      exact congrArg (List.cons (a, b)) (ih (List.cons_ne_nil b xs))

theorem map_fst_steps (l : List α) : (steps l).map Prod.fst = l.dropLast := by
  induction l with
  | nil => rfl
  | cons a l ih =>
    cases l with
    | nil => rfl
    | cons b l => exact congrArg (List.cons a) ih

theorem map_snd_steps (l : List α) : (steps l).map Prod.snd = l.tail :=
  List.map_snd_zip (by rw [List.length_tail]; omega)

theorem length_steps (l : List α) : (steps l).length = l.length - 1 := by
  rw [← List.length_map (f := Prod.snd), map_snd_steps, List.length_tail]

theorem steps_map {β : Type} (f : α → β) (l : List α) :
    steps (l.map f) = (steps l).map (Prod.map f f) := by
  rw [steps, ← List.map_tail, List.zip_map, steps]

theorem nodup_steps {l : List α} (h : l.Nodup) : (steps l).Nodup := by
  refine List.Nodup.of_map Prod.snd ?_
  rw [map_snd_steps]
  exact h.tail

theorem mem_of_mem_steps {l : List α} {p : α × α} (h : p ∈ steps l) : p.1 ∈ l ∧ p.2 ∈ l :=
  ⟨(List.of_mem_zip h).1, List.mem_of_mem_tail (List.of_mem_zip h).2⟩

theorem ne_of_mem_steps {l : List α} (hl : l.Nodup) {p : α × α} (h : p ∈ steps l) : p.1 ≠ p.2 := by
  induction l with
  | nil => cases h
  | cons a l ih =>
    cases l with
    | nil => cases h
    | cons b l =>
      obtain ⟨hnot, hl⟩ := List.nodup_cons.1 hl
      rw [steps_cons_cons] at h
      rcases List.mem_cons.1 h with rfl | h
      · exact fun hab : a = b => hnot (hab ▸ List.mem_cons_self)
      · exact ih hl h

end Steps

/-! ## Places -/

theorem Spec.nodup_places (spec : Spec) : spec.places.Nodup := by
  refine List.nodup_flatMap.2 ⟨fun entry _ => ?_, ?_⟩
  · exact entry.2.keys_nodup.map fun _ _ h => (Prod.mk.inj h).2
  · refine (List.pairwise_map.1 spec.subStages.keys_nodup).imp fun {a b} hab => ?_
    intro p hp hp'
    obtain ⟨_, -, rfl⟩ := List.mem_map.1 hp
    obtain ⟨_, -, heq⟩ := List.mem_map.1 hp'
    exact hab (Prod.mk.inj heq).1.symm

theorem Spec.length_places (spec : Spec) : spec.places.length = spec.stageCount := by
  rw [places, stageCount, List.length_flatMap, Table.values, List.map_map]
  congr 2
  funext entry
  exact (List.length_map _).trans (List.length_map _)

namespace Graph

/-! ## Edges of categories -/

theorem ends_edgesAlong (ids : List String) : (edgesAlong ids).map Edge.ends = steps ids := by
  fun_induction edgesAlong ids with
  | case1 a b rest ih => exact congrArg (List.cons (a, b)) ih
  | case2 ids h =>
    match ids, h with
    | [], _ => rfl
    | [_], _ => rfl
    | a :: b :: rest, h => exact absurd rfl (h a b rest)

theorem edgesAcross_cons_cons {a b : CategoryNode} (ha : a.stageIds ≠ []) (hb : b.stageIds ≠ [])
    (rest : List CategoryNode) :
    edgesAcross (a :: b :: rest) =
      edge (a.stageIds.getLast ha) (b.stageIds.head hb) :: edgesAcross (b :: rest) := by
  rw [edgesAcross, List.getLast?_eq_some_getLast ha, List.head?_eq_some_head hb]
  rfl

/-- The edges of categories that all have stages are the steps along the ids of the stages. -/
theorem ends_edgesOf_perm {categories : List CategoryNode}
    (h : ∀ c ∈ categories, c.stageIds ≠ []) :
    ((edgesOf categories).map Edge.ends).Perm
      (steps (categories.flatMap CategoryNode.stageIds)) := by
  induction categories with
  | nil => exact List.Perm.refl _
  | cons a categories ih =>
    obtain ⟨ha, h⟩ := List.forall_mem_cons.1 h
    cases categories with
    | nil => simp [edgesOf, edgesAcross, ends_edgesAlong]
    | cons b rest =>
      have hb := h b List.mem_cons_self
      have hne : (b :: rest).flatMap CategoryNode.stageIds ≠ [] := by
        rw [List.flatMap_cons]
        exact List.append_ne_nil_of_left_ne_nil hb _
      have hhead : ((b :: rest).flatMap CategoryNode.stageIds).head hne = b.stageIds.head hb :=
        List.head_append_of_ne_nil hb
      have hih := ih h
      rw [edgesOf, List.map_append] at hih
      rw [List.flatMap_cons, steps_append ha hne, hhead, edgesOf, edgesAcross_cons_cons ha hb,
        List.flatMap_cons, List.map_append, List.map_append, ends_edgesAlong, List.append_assoc]
      refine List.Perm.append_left _ ?_
      exact List.perm_middle.trans (hih.cons _)

/-! ## The edges of a built graph -/

variable {mapping : Mapping}

/-- A category that is built has its stages, and has some. -/
theorem stageIds_makeBlocks (index : Nat) (ids : Ids)
    (entries : List (Category × Table String String)) :
    ∀ b ∈ makeBlocks mapping index ids entries,
      b.category.stageIds = b.stages.map StageNode.id ∧ b.stages ≠ [] := by
  refine forall_mem_makeBlocks (fun c index ids entries hne => ⟨rfl, ?_⟩) index ids entries
  obtain ⟨first, rest, rfl⟩ := List.exists_cons_of_ne_nil hne
  exact List.cons_ne_nil _ _

theorem flatMap_stageIds (spec : Spec) :
    (build mapping spec).categories.flatMap CategoryNode.stageIds =
      (build mapping spec).stages.map StageNode.id := by
  have hblocks : ∀ b ∈ makeBlocks mapping 0 Ids.none spec.subStages.entries,
      b.category.stageIds = b.stages.map StageNode.id :=
    fun b hb => (stageIds_makeBlocks _ _ _ b hb).1
  calc (build mapping spec).categories.flatMap CategoryNode.stageIds
      = (makeBlocks mapping 0 Ids.none spec.subStages.entries).flatMap
          fun b => b.category.stageIds := List.flatMap_map ..
    _ = (makeBlocks mapping 0 Ids.none spec.subStages.entries).flatMap
          fun b => b.stages.map StageNode.id := List.flatMap_congr hblocks
    _ = (build mapping spec).stages.map StageNode.id := List.map_flatMap.symm

theorem nodup_stageIds (spec : Spec) :
    ((build mapping spec).stages.map StageNode.id).Nodup := by
  rw [map_id_stages]
  refine spec.nodup_places.map fun p q h => ?_
  exact Prod.ext (stageId_inj.1 h).1 (stageId_inj.1 h).2

theorem length_stages (spec : Spec) : (build mapping spec).stages.length = spec.stageCount := by
  rw [← List.length_map StageNode.id, map_id_stages, List.length_map, spec.length_places]

/-- The edges are the steps along the ids of the stages. -/
theorem ends_edges_perm (spec : Spec) :
    ((build mapping spec).edges.map Edge.ends).Perm
      (steps ((build mapping spec).stages.map StageNode.id)) := by
  rw [← flatMap_stageIds]
  refine ends_edgesOf_perm fun c hc => ?_
  obtain ⟨b, hb, rfl⟩ := List.mem_map.1 hc
  obtain ⟨hids, hne⟩ := stageIds_makeBlocks _ _ _ b hb
  rw [hids]
  exact fun hnil => hne (List.map_eq_nil_iff.1 hnil)

variable (mapping)

/-- The edges form one path through all stages, in their order: each stage but the last is the
source of one edge, to the stage after it, and each stage but the first is the target of one. -/
theorem edges_path (spec : Spec) :
    let graph := build mapping spec
    let ids := graph.stages.map StageNode.id
    ids.Nodup ∧
      (graph.edges.map Edge.ends).Perm (steps ids) ∧
      (graph.edges.map Edge.ends).Nodup ∧
      (graph.edges.map Edge.source).Perm ids.dropLast ∧
      (graph.edges.map Edge.target).Perm ids.tail ∧
      (∀ e ∈ graph.edges, e.source ≠ e.target ∧ e.source ∈ ids ∧ e.target ∈ ids) ∧
      graph.edges.length = spec.stageCount - 1 ∧
      graph.summary =
        ⟨graph.categories.length + graph.stages.length, spec.stageCount - 1,
          graph.categories.length, spec.stageCount, graph.subStages.length⟩ := by
  intro graph ids
  have hnodup : ids.Nodup := nodup_stageIds spec
  have hperm : (graph.edges.map Edge.ends).Perm (steps ids) := ends_edges_perm spec
  have hstages : graph.stages.length = spec.stageCount := length_stages spec
  have hlength : graph.edges.length = spec.stageCount - 1 := by
    rw [← List.length_map Edge.ends, hperm.length_eq, length_steps, List.length_map, hstages]
  refine ⟨hnodup, hperm, hperm.nodup_iff.2 (nodup_steps hnodup), ?_, ?_, ?_, hlength, ?_⟩
  · have := hperm.map Prod.fst
    rwa [map_fst_steps, List.map_map] at this
  · have := hperm.map Prod.snd
    rwa [map_snd_steps, List.map_map] at this
  · intro e he
    have hstep : e.ends ∈ steps ids := hperm.mem_iff.1 (List.mem_map_of_mem he)
    exact ⟨ne_of_mem_steps hnodup hstep, mem_of_mem_steps hstep⟩
  · rw [summary, hlength, hstages]

end Graph

end Flowline
