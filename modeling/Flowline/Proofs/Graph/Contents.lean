import Flowline.Proofs.Graph.Path
import Mathlib.Data.List.Forall2

/-!
# What a built graph contains

The builder keeps containment three times: in the order of the stages, in the ids that a category
lists, and in the parent that a stage names. Here the three are tied to the entries of the
specification and to each other.

* `Block.Shows`: one category with its stages, entry by entry. `forall₂_makeBlocks` says that the
  builder makes one such block for each category with stages, in order, by the recursions of
  `makeSubStages`, `makeStages` and `makeBlocks`.
* `stage?_eq_some_iff`, `stageNamed?_eq_some_iff`: a look-up finds the one node with the id or the
  place, since both are distinct.
* `Contains spec g`: the graph holds the entries of the specification, each once, in order, and
  nothing else, and its look-ups find them. `build_contains`: the built graph does.
-/

namespace Flowline

/-- The categories that have stages, with their stages. -/
def Spec.shown (spec : Spec) : List (Category × Table String String) :=
  spec.subStages.entries.filter fun entry => !entry.2.isEmpty

/-- All stage entries, in order, with their categories. -/
def Spec.stageEntries (spec : Spec) : List (Category × String × String) :=
  spec.shown.flatMap fun (c, stages) => stages.entries.map fun entry => (c, entry)

/-- The node stands for the stage entry: it has its category and name, and the sub-stages and the
kind that its expression says. -/
structure StageNode.Shows (s : StageNode) (entry : Category × String × String) : Prop where
  category : s.category = entry.1
  name : s.name = entry.2.1
  subStageNames : s.subStages.map SubStage.name = (deriveSubStages entry.2.2).2
  kind : ∀ sub ∈ s.subStages, sub.kind = (deriveSubStages entry.2.2).1

/-- The category and the name of a stage. -/
def StageNode.place (s : StageNode) : Category × String := (s.category, s.name)

namespace Graph

/-- The block holds one category and its stages. -/
structure Block.Shows (entry : Category × Table String String) (b : Block) : Prop where
  name : b.category.name = entry.1
  stageIds : b.category.stageIds = b.stages.map StageNode.id
  stages : List.Forall₂ (fun e s => StageNode.Shows s (entry.1, e)) entry.2.entries b.stages
  parents : ∀ s ∈ b.stages, s.parentId = b.category.id

/-- The graph holds the stages of the specification, each once, in order, and nothing else. -/
structure Contains (spec : Spec) (g : Graph) : Prop where
  /-- The categories are those with stages. -/
  categories : g.categories.map CategoryNode.name = spec.shown.map Prod.fst
  /-- The stages are the entries. -/
  stages : List.Forall₂ (fun entry s => StageNode.Shows s entry) spec.stageEntries g.stages
  /-- The ids that the categories list are those of the stages. -/
  stageIds : g.categories.flatMap CategoryNode.stageIds = g.stages.map StageNode.id
  /-- One category lists a stage: the one of the stage's category, which is its parent. -/
  owner : ∀ s ∈ g.stages, ∃ node ∈ g.categories, node.name = s.category ∧ node.id = s.parentId ∧
    ∀ other ∈ g.categories, s.id ∈ other.stageIds ↔ other = node
  /-- The stage with an id is the one that has it. -/
  byId : ∀ id s, g.stage? id = some s ↔ s ∈ g.stages ∧ s.id = id
  /-- The stage with a name is the one that has it, in its category. -/
  byName : ∀ c name s, g.stageNamed? c name = some s ↔ s ∈ g.stages ∧ s.category = c ∧ s.name = name
  /-- An entry is found under its name and under its id. -/
  declared : ∀ c name expr, (spec.stagesOf c).get? name = some expr →
    ∃ s, g.stageNamed? c name = some s ∧ g.stage? (stageId c name) = some s ∧
      s.Shows (c, name, expr)
  /-- What has no entry is not found. -/
  undeclared : ∀ c name, (spec.stagesOf c).get? name = none →
    g.stageNamed? c name = none ∧ g.stage? (stageId c name) = none
  /-- The stages of a category are those that it lists. -/
  ofCategory : ∀ c, (g.stagesOf c).map some =
    ((g.categories.filter fun node => node.name = c).flatMap CategoryNode.stageIds).map g.stage?

/-! ## Stages -/

section Stages

variable (mapping : Mapping)

theorem map_name_makeSubStages (c : Category) (stage : String) (kind : SubStageKind) (ids : Ids)
    (names : List String) :
    (makeSubStages mapping c stage kind ids names).1.map SubStage.name = names := by
  induction names generalizing ids with
  | nil => rfl
  | cons name names ih => exact congrArg (List.cons name) (ih _)

theorem shows_makeStage (c : Category) (parentId : String) (index : Nat) (ids : Ids)
    (stage expr : String) :
    (makeStage mapping c parentId index ids stage expr).1.Shows (c, stage, expr) where
  category := rfl
  name := rfl
  subStageNames := (map_link SubStage.name (fun _ _ => rfl) _ _).trans
    (map_name_makeSubStages mapping c stage _ _ _)
  kind := forall_mem_subStages_makeStage (fun _ _ _ => rfl) parentId index ids

theorem forall₂_makeStages (c : Category) (parentId : String) (index : Nat) (ids : Ids)
    (entries : List (String × String)) :
    List.Forall₂ (fun entry s => StageNode.Shows s (c, entry)) entries
      (makeStages mapping c parentId index ids entries).1 := by
  induction entries generalizing index ids with
  | nil => exact List.Forall₂.nil
  | cons entry entries ih =>
    exact List.Forall₂.cons (shows_makeStage mapping c parentId index ids entry.1 entry.2) (ih _ _)

/-- One block for each category with stages, in order. -/
theorem forall₂_makeBlocks (index : Nat) (ids : Ids)
    (entries : List (Category × Table String String)) :
    List.Forall₂ Block.Shows (entries.filter fun entry => !entry.2.isEmpty)
      (makeBlocks mapping index ids entries) := by
  induction entries generalizing index ids with
  | nil => exact List.Forall₂.nil
  | cons entry rest ih =>
    obtain ⟨c, stages⟩ := entry
    rw [makeBlocks]
    split
    · next hempty =>
      rw [List.filter_cons_of_neg (by simp [hempty])]
      exact ih index ids
    · next hempty =>
      rw [List.filter_cons_of_pos (by simp [hempty])]
      refine List.Forall₂.cons ⟨rfl, rfl, ?_, ?_⟩ (ih _ _)
      · exact forall₂_makeStages mapping c _ 0 _ stages.entries
      · exact forall_mem_makeStages (fun _ _ _ _ => rfl) 0 _ stages.entries

end Stages

/-! ## Blocks -/

section Blocks

variable {entries : List (Category × Table String String)} {blocks : List Block}

theorem Block.Shows.category_of_mem {entry : Category × Table String String} {b : Block}
    (h : b.Shows entry) {s : StageNode} (hs : s ∈ b.stages) : s.category = b.category.name := by
  have hstages := h.stages
  generalize entry.2.entries = es, b.stages = ss at hstages hs
  induction hstages with
  | nil => cases hs
  | cons hshows _ ih =>
    rcases List.mem_cons.1 hs with rfl | hs
    · rw [hshows.category, h.name]
    · exact ih hs

theorem exists_of_mem_blocks (h : List.Forall₂ Block.Shows entries blocks) {b : Block}
    (hb : b ∈ blocks) : ∃ entry ∈ entries, b.Shows entry := by
  induction h with
  | nil => cases hb
  | @cons entry b' entries blocks hshows _ ih =>
    rcases List.mem_cons.1 hb with rfl | hb
    · exact ⟨entry, List.mem_cons_self, hshows⟩
    · obtain ⟨entry', hmem, hshows'⟩ := ih hb
      exact ⟨entry', List.mem_cons_of_mem _ hmem, hshows'⟩

theorem map_name_blocks (h : List.Forall₂ Block.Shows entries blocks) :
    (blocks.map Block.category).map CategoryNode.name = entries.map Prod.fst := by
  induction h with
  | nil => rfl
  | cons hshows _ ih => rw [List.map_cons, List.map_cons, List.map_cons, hshows.name, ih]

theorem forall₂_stages_blocks (h : List.Forall₂ Block.Shows entries blocks) :
    List.Forall₂ (fun entry s => StageNode.Shows s entry)
      (entries.flatMap fun (c, stages) => stages.entries.map fun entry => (c, entry))
      (blocks.flatMap Block.stages) := by
  induction h with
  | nil => exact List.Forall₂.nil
  | cons hshows _ ih =>
    rw [List.flatMap_cons, List.flatMap_cons]
    refine List.rel_append ?_ ih
    exact List.forall₂_map_left_iff.2 hshows.stages

/-- The ids that the nodes of a category list are those of its stages. -/
theorem stageIds_filter_blocks (h : List.Forall₂ Block.Shows entries blocks) (c : Category) :
    ((blocks.map Block.category).filter fun node => node.name = c).flatMap CategoryNode.stageIds =
      ((blocks.flatMap Block.stages).filter fun s => s.category == c).map StageNode.id := by
  induction h with
  | nil => rfl
  | @cons entry b entries blocks hshows _ ih =>
    rw [List.map_cons, List.flatMap_cons, List.filter_append, List.map_append, ← ih]
    by_cases hc : b.category.name = c
    · have hall : b.stages.filter (fun s => s.category == c) = b.stages := by
        refine List.filter_eq_self.2 fun s hs => ?_
        rw [hshows.category_of_mem hs, hc]
        exact beq_self_eq_true c
      rw [List.filter_cons_of_pos (by simp [hc]), List.flatMap_cons, hshows.stageIds, hall]
    · have hnone : b.stages.filter (fun s => s.category == c) = [] := by
        refine List.filter_eq_nil_iff.2 fun s hs => ?_
        rw [hshows.category_of_mem hs]
        simpa using hc
      rw [List.filter_cons_of_neg (by simp [hc]), hnone, List.map_nil, List.nil_append]

end Blocks

/-! ## The built graph -/

variable {mapping : Mapping} {spec : Spec}

/-- The blocks that the graph is put together from. -/
theorem forall₂_blocks (mapping : Mapping) (spec : Spec) :
    List.Forall₂ Block.Shows spec.shown (makeBlocks mapping 0 Ids.none spec.subStages.entries) :=
  forall₂_makeBlocks mapping 0 Ids.none spec.subStages.entries

theorem mem_stageEntries {c : Category} {name expr : String} :
    (c, name, expr) ∈ spec.stageEntries ↔ (spec.stagesOf c).get? name = some expr := by
  constructor
  · intro h
    obtain ⟨⟨c', stages⟩, hshown, hentry⟩ := List.mem_flatMap.1 h
    obtain ⟨⟨name', expr'⟩, hmem, heq⟩ := List.mem_map.1 hentry
    cases heq
    have hstages := (spec.subStages.get?_eq_some_iff c stages).2 (List.mem_filter.1 hshown).1
    rw [Spec.stagesOf, hstages]
    exact (stages.get?_eq_some_iff name expr).2 hmem
  · intro h
    rw [Spec.stagesOf] at h
    cases hstages : spec.subStages.get? c with
    | none =>
      rw [hstages] at h
      cases h
    | some stages =>
      rw [hstages] at h
      have hmem := (stages.get?_eq_some_iff name expr).1 h
      have hnonempty : (!stages.isEmpty) = true := by
        cases hentries : stages.entries with
        | nil =>
          rw [hentries] at hmem
          cases hmem
        | cons e es => simp [Table.isEmpty, hentries]
      have hshown : (c, stages) ∈ spec.shown :=
        List.mem_filter.2 ⟨(spec.subStages.get?_eq_some_iff c stages).1 hstages, hnonempty⟩
      exact List.mem_flatMap.2 ⟨(c, stages), hshown, List.mem_map_of_mem hmem⟩

theorem stages_shown (mapping : Mapping) (spec : Spec) :
    List.Forall₂ (fun entry s => StageNode.Shows s entry) spec.stageEntries
      (build mapping spec).stages :=
  forall₂_stages_blocks (forall₂_blocks mapping spec)

theorem exists_shown {s : StageNode} (hs : s ∈ (build mapping spec).stages) :
    ∃ entry ∈ spec.stageEntries, s.Shows entry := by
  obtain ⟨i, hi, rfl⟩ := List.getElem_of_mem hs
  have hshown := stages_shown mapping spec
  have hlength := hshown.length_eq
  refine ⟨spec.stageEntries[i], List.getElem_mem _, ?_⟩
  exact hshown.get (by omega) hi

theorem exists_stage (mapping : Mapping) {entry : Category × String × String}
    (h : entry ∈ spec.stageEntries) : ∃ s ∈ (build mapping spec).stages, s.Shows entry := by
  obtain ⟨i, hi, rfl⟩ := List.getElem_of_mem h
  have hshown := stages_shown mapping spec
  have hlength := hshown.length_eq
  refine ⟨(build mapping spec).stages[i], List.getElem_mem _, ?_⟩
  exact hshown.get hi (by omega)

theorem map_stageEntries (spec : Spec) :
    spec.stageEntries.map (fun entry => (entry.1, entry.2.1)) = spec.places := by
  unfold Spec.stageEntries Spec.shown Spec.places
  induction spec.subStages.entries with
  | nil => rfl
  | cons entry rest ih =>
    obtain ⟨c, stages⟩ := entry
    rw [List.flatMap_cons]
    dsimp only
    by_cases hempty : stages.isEmpty = true
    · have hkeys : stages.keys = [] := List.map_eq_nil_iff.2 (List.isEmpty_iff.1 hempty)
      rw [List.filter_cons_of_neg (by simp [hempty]), hkeys]
      exact ih
    · rw [List.filter_cons_of_pos (by simp [hempty]), List.flatMap_cons, List.map_append, ih]
      simp [Table.keys, Function.comp_def]

/-- The stages stand at the places that the specification declares, in order. -/
theorem map_place_stages (mapping : Mapping) (spec : Spec) :
    (build mapping spec).stages.map StageNode.place = spec.places := by
  rw [← map_stageEntries]
  have hshown := stages_shown mapping spec
  generalize spec.stageEntries = entries, (build mapping spec).stages = stages at hshown
  induction hshown with
  | nil => rfl
  | cons hshows _ ih =>
    rw [List.map_cons, List.map_cons, ih, StageNode.place, hshows.category, hshows.name]

theorem id_of_mem_stages {s : StageNode} (hs : s ∈ (build mapping spec).stages) :
    s.id = stageId s.category s.name := by
  have hids : (build mapping spec).stages.map StageNode.id =
      spec.places.map fun place => stageId place.1 place.2 := map_id_stages spec
  rw [← map_place_stages mapping spec, List.map_map] at hids
  exact List.map_inj_left.1 hids s hs

theorem eq_of_id_eq {s s' : StageNode} (hs : s ∈ (build mapping spec).stages)
    (hs' : s' ∈ (build mapping spec).stages) (h : s.id = s'.id) : s = s' :=
  List.inj_on_of_nodup_map (nodup_stageIds spec) hs hs' h

/-! ## Looking up -/

theorem find?_eq_some_iff_of_unique {α : Type} {p : α → Bool} {l : List α} {a : α}
    (h : ∀ x ∈ l, ∀ y ∈ l, p x = true → p y = true → x = y) :
    l.find? p = some a ↔ a ∈ l ∧ p a = true := by
  constructor
  · intro hfind
    exact ⟨List.mem_of_find?_eq_some hfind, List.find?_some hfind⟩
  · rintro ⟨hmem, hp⟩
    cases hfind : l.find? p with
    | none => exact absurd hp (List.find?_eq_none.1 hfind a hmem)
    | some b =>
      have hb := h b (List.mem_of_find?_eq_some hfind) a hmem (List.find?_some hfind) hp
      rw [hb]

theorem stage?_eq_some_iff {id : String} {s : StageNode} :
    (build mapping spec).stage? id = some s ↔ s ∈ (build mapping spec).stages ∧ s.id = id := by
  unfold stage?
  rw [find?_eq_some_iff_of_unique, beq_iff_eq]
  intro x hx y hy hidx hidy
  exact eq_of_id_eq hx hy ((beq_iff_eq.1 hidx).trans (beq_iff_eq.1 hidy).symm)

theorem stageNamed?_eq_some_iff {c : Category} {name : String} {s : StageNode} :
    (build mapping spec).stageNamed? c name = some s ↔
      s ∈ (build mapping spec).stages ∧ s.category = c ∧ s.name = name := by
  unfold stageNamed?
  rw [find?_eq_some_iff_of_unique]
  · simp only [Bool.and_eq_true, beq_iff_eq]
  · intro x hx y hy hpx hpy
    simp only [Bool.and_eq_true, beq_iff_eq] at hpx hpy
    refine eq_of_id_eq hx hy ?_
    rw [id_of_mem_stages hx, id_of_mem_stages hy, hpx.1, hpx.2, hpy.1, hpy.2]

/-- The id of a place is found exactly if the place is. -/
theorem stage?_stageId (c : Category) (name : String) :
    (build mapping spec).stage? (stageId c name) = (build mapping spec).stageNamed? c name := by
  refine Option.ext fun s => ?_
  rw [stage?_eq_some_iff, stageNamed?_eq_some_iff]
  refine and_congr_right fun hs => ?_
  rw [id_of_mem_stages hs, stageId_inj]

theorem exists_declared (mapping : Mapping) {c : Category} {name expr : String}
    (h : (spec.stagesOf c).get? name = some expr) :
    ∃ s, (build mapping spec).stageNamed? c name = some s ∧ s.Shows (c, name, expr) := by
  obtain ⟨s, hs, hshows⟩ := exists_stage mapping (mem_stageEntries.2 h)
  exact ⟨s, stageNamed?_eq_some_iff.2 ⟨hs, hshows.category, hshows.name⟩, hshows⟩

theorem stageNamed?_eq_none {c : Category} {name : String}
    (h : (spec.stagesOf c).get? name = none) :
    (build mapping spec).stageNamed? c name = none := by
  rw [Option.eq_none_iff_forall_ne_some]
  intro s hfind
  obtain ⟨hs, hcategory, hname⟩ := stageNamed?_eq_some_iff.1 hfind
  obtain ⟨⟨c', name', expr⟩, hentry, hshows⟩ := exists_shown hs
  have hc : c' = c := hshows.category.symm.trans hcategory
  have hn : name' = name := hshows.name.symm.trans hname
  subst hc hn
  rw [mem_stageEntries.1 hentry] at h
  cases h

/-! ## Owners -/

theorem exists_owner {s : StageNode} (hs : s ∈ (build mapping spec).stages) :
    ∃ node ∈ (build mapping spec).categories, node.name = s.category ∧ node.id = s.parentId ∧
      ∀ other ∈ (build mapping spec).categories, s.id ∈ other.stageIds ↔ other = node := by
  obtain ⟨b, hb, hsb⟩ := List.mem_flatMap.1 hs
  have hblocks := forall₂_blocks mapping spec
  obtain ⟨entry, -, hshows⟩ := exists_of_mem_blocks hblocks hb
  have hcategory : s.category = b.category.name := hshows.category_of_mem hsb
  refine ⟨b.category, List.mem_map_of_mem hb, hcategory.symm, (hshows.parents s hsb).symm, ?_⟩
  intro other hother
  constructor
  · intro hid
    obtain ⟨b', hb', rfl⟩ := List.mem_map.1 hother
    obtain ⟨entry', -, hshows'⟩ := exists_of_mem_blocks hblocks hb'
    rw [hshows'.stageIds] at hid
    obtain ⟨s', hs', hid⟩ := List.mem_map.1 hid
    have heq : s' = s := eq_of_id_eq (List.mem_flatMap.2 ⟨b', hb', hs'⟩) hs hid
    -- Both blocks have the stage, so both have its category, and no two blocks share one.
    have hname : b'.category.name = b.category.name := by
      rw [← hshows'.category_of_mem hs', heq, hcategory]
    have hnodup : ((build mapping spec).categories.map CategoryNode.name).Nodup := by
      have hnames := map_name_blocks hblocks
      refine hnames ▸ spec.subStages.keys_nodup.sublist ?_
      exact List.filter_sublist.map Prod.fst
    exact List.inj_on_of_nodup_map hnodup hother (List.mem_map_of_mem hb) hname
  · rintro rfl
    rw [hshows.stageIds]
    exact List.mem_map_of_mem hsb

theorem map_stage?_listed (c : Category) :
    ((build mapping spec).stagesOf c).map some =
      (((build mapping spec).categories.filter fun node => node.name = c).flatMap
        CategoryNode.stageIds).map (build mapping spec).stage? := by
  have hlisted := stageIds_filter_blocks (forall₂_blocks mapping spec) c
  have hids : (((build mapping spec).categories.filter fun node => node.name = c).flatMap
      CategoryNode.stageIds) = ((build mapping spec).stagesOf c).map StageNode.id := hlisted
  rw [hids, List.map_map]
  refine List.map_congr_left fun s hs => ?_
  have hmem : s ∈ (build mapping spec).stages := (List.mem_filter.1 hs).1
  exact (stage?_eq_some_iff.2 ⟨hmem, rfl⟩).symm

/-- The built graph holds exactly what the specification declares. -/
theorem build_contains (mapping : Mapping) (spec : Spec) : Contains spec (build mapping spec) where
  categories := map_name_blocks (forall₂_blocks mapping spec)
  stages := stages_shown mapping spec
  stageIds := flatMap_stageIds spec
  owner := fun _ hs => exists_owner hs
  byId := fun _ _ => stage?_eq_some_iff
  byName := fun _ _ _ => stageNamed?_eq_some_iff
  declared := by
    intro c name expr h
    obtain ⟨s, hfind, hshows⟩ := exists_declared mapping h
    exact ⟨s, hfind, (stage?_stageId c name).trans hfind, hshows⟩
  undeclared := by
    intro c name h
    have hnone : (build mapping spec).stageNamed? c name = none := stageNamed?_eq_none h
    exact ⟨hnone, (stage?_stageId c name).trans hnone⟩
  ofCategory := map_stage?_listed

end Graph

end Flowline
