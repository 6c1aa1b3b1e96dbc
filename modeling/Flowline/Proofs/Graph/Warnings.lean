import Flowline.Proofs.Graph.Apart

/-!
# What the warnings report

Only sub-stages are numbered, and only because of one another: what a category or a stage asks for
never begins like the id of a sub-stage. So the ids of the sub-stages are those that their bases
get in turn, as if there were nothing else in the graph (`map_id_subStages`).

* `warnings_build_perm`: the warnings from the entries of the specification, the ids of the
  sub-stages and the overall line, kind by kind.
* `reports_build`: this, and when there is nothing to report. An id is not its base exactly if an
  earlier sub-stage has the base as its id, be it as its own base or with a number.
-/

namespace Flowline

/-- A sub-stage as it is declared. -/
structure SubStagePlace where
  category : Category
  stage : String
  name : String
deriving DecidableEq

/-- The id that the sub-stage asks for. -/
def SubStagePlace.base (place : SubStagePlace) : String :=
  Graph.subStageId place.category place.stage place.name

/-- The sub-stages that a stage entry declares, in order. -/
def Spec.subStagesOf (entry : Category × String × String) : List SubStagePlace :=
  (deriveSubStages entry.2.2).2.map (SubStagePlace.mk entry.1 entry.2.1)

/-- The sub-stages that a specification declares, in order. -/
def Spec.subStagePlaces (spec : Spec) : List SubStagePlace :=
  spec.stageEntries.flatMap Spec.subStagesOf

/-- The stages that the overall line names, in order, with the categories of their groups. -/
def Spec.outlinePlaces (spec : Spec) : List (Category × String) :=
  spec.outline.flatMap fun group => group.stages.map fun stage => (group.category, stage)

theorem StageNode.Shows.subStagesOf_eq {s : StageNode} {entry : Category × String × String}
    (h : s.Shows entry) :
    Spec.subStagesOf entry =
      s.subStages.map fun sub => SubStagePlace.mk s.category s.name sub.name := by
  rw [Spec.subStagesOf, ← h.subStageNames, h.category, h.name, List.map_map]
  rfl

namespace Graph

/-! ## The ids of the sub-stages -/

theorem isSubStageId_append (c : Category) (stage name s : String) :
    IsSubStageId (subStageId c stage name ++ s) := ⟨c, stage, name, s, rfl⟩

theorem not_isSubStageId_stageId_append (c : Category) (stage s : String) :
    ¬ IsSubStageId (stageId c stage ++ s) := by
  have hid : stageId c stage ++ s = stageId c (stage ++ s) := String.append_assoc
  rw [hid]
  exact not_isSubStageId_stageId c _

theorem not_isSubStageId_categoryId_append (c : Category) (s : String) :
    ¬ IsSubStageId (categoryId c ++ s) := by
  rintro ⟨c', stage, name, s', h⟩
  have hlist := congrArg String.toList h
  simp [categoryId, subStageId] at hlist

/-- What does not ask for the id of a sub-stage takes none away. -/
theorem agreeOn_claim_of_not {ids : Ids} {base : String}
    (h : ∀ s, ¬ IsSubStageId (base ++ s)) : Ids.AgreeOn IsSubStageId ids (ids.claim base).2 := by
  refine (ids.hands_claim base).agreeOn fun id hid => ?_
  obtain ⟨s, hs⟩ := ids.exists_idFor_eq_append base
  rw [List.mem_singleton.1 hid, Ids.claim, hs]
  exact h s

section Claims

variable (mapping : Mapping)

theorem makeSubStages_claims (c : Category) (stage : String) (kind : SubStageKind) (ids : Ids)
    (names : List String) :
    ((makeSubStages mapping c stage kind ids names).1.map SubStage.id,
      (makeSubStages mapping c stage kind ids names).2) =
        ids.claimAll (names.map (subStageId c stage)) := by
  induction names generalizing ids with
  | nil => rfl
  | cons name names ih =>
    rw [List.map_cons, Ids.claimAll_cons, ← ih]
    rfl

variable {a b : Ids} (h : Ids.AgreeOn IsSubStageId a b)
include h

theorem makeStage_claims (c : Category) (parentId : String) (index : Nat) (stage expr : String) :
    let made := makeStage mapping c parentId index a stage expr
    let claimed := b.claimAll ((Spec.subStagesOf (c, stage, expr)).map SubStagePlace.base)
    made.1.subStages.map SubStage.id = claimed.1 ∧
      Ids.AgreeOn IsSubStageId made.2 claimed.2 := by
  have hagree : Ids.AgreeOn IsSubStageId (a.claim (stageId c stage)).2 b :=
    (agreeOn_claim_of_not (not_isSubStageId_stageId_append c stage)).symm.trans h
  have hbases : (Spec.subStagesOf (c, stage, expr)).map SubStagePlace.base =
      (deriveSubStages expr).2.map (subStageId c stage) := List.map_map
  have hclaims := makeSubStages_claims mapping c stage (deriveSubStages expr).1
    (a.claim (stageId c stage)).2 (deriveSubStages expr).2
  have hnumbered : ∀ base ∈ (deriveSubStages expr).2.map (subStageId c stage),
      ∀ s, IsSubStageId (base ++ s) :=
    List.forall_mem_map.2 fun name _ => isSubStageId_append c stage name
  have hclaimed := hagree.claimAll hnumbered
  rw [← hclaims, ← hbases] at hclaimed
  refine ⟨?_, hclaimed.2⟩
  rw [fst_makeStage, map_link SubStage.id (fun _ _ => rfl)]
  exact hclaimed.1

theorem makeStages_claims (c : Category) (parentId : String) (index : Nat)
    (entries : List (String × String)) :
    let made := makeStages mapping c parentId index a entries
    let claimed := b.claimAll
      ((entries.flatMap fun entry => Spec.subStagesOf (c, entry)).map SubStagePlace.base)
    (made.1.flatMap StageNode.subStages).map SubStage.id = claimed.1 ∧
      Ids.AgreeOn IsSubStageId made.2 claimed.2 := by
  induction entries generalizing index a b with
  | nil => exact ⟨rfl, h⟩
  | cons entry entries ih =>
    obtain ⟨hids, hagree⟩ := makeStage_claims mapping h c parentId index entry.1 entry.2
    obtain ⟨hrest, hafter⟩ := ih hagree (index + 1)
    rw [List.flatMap_cons, List.map_append, Ids.claimAll_append, ← hrest, ← hids]
    exact ⟨by rw [makeStages, List.flatMap_cons, List.map_append], hafter⟩

theorem makeBlocks_claims (index : Nat) (entries : List (Category × Table String String)) :
    (((makeBlocks mapping index a entries).flatMap Block.stages).flatMap StageNode.subStages).map
        SubStage.id =
      (b.claimAll ((entries.flatMap fun entry => entry.2.entries.flatMap fun stage =>
        Spec.subStagesOf (entry.1, stage)).map SubStagePlace.base)).1 := by
  induction entries generalizing index a b with
  | nil => rfl
  | cons entry rest ih =>
    obtain ⟨c, stages⟩ := entry
    by_cases hempty : stages.isEmpty = true
    · rw [makeBlocks, if_pos hempty, List.flatMap_cons, List.isEmpty_iff.1 hempty]
      exact ih h index
    · have hclaimed : Ids.AgreeOn IsSubStageId (a.claim (categoryId c)).2 b :=
        (agreeOn_claim_of_not (not_isSubStageId_categoryId_append c)).symm.trans h
      obtain ⟨hids, hagree⟩ := makeStages_claims mapping hclaimed c
        (a.claim (categoryId c)).1 0 stages.entries
      rw [stages_makeBlocks_cons hempty, List.flatMap_append, List.map_append, ih hagree,
        List.flatMap_cons, List.map_append, Ids.claimAll_append, hids]

end Claims

theorem flatMap_stageEntries (spec : Spec) {β : Type} (f : Category × String × String → List β) :
    spec.stageEntries.flatMap f =
      spec.subStages.entries.flatMap fun entry => entry.2.entries.flatMap fun stage =>
        f (entry.1, stage) := by
  unfold Spec.stageEntries Spec.shown
  induction spec.subStages.entries with
  | nil => rfl
  | cons entry rest ih =>
    obtain ⟨c, stages⟩ := entry
    by_cases hempty : stages.isEmpty = true
    · rw [List.filter_cons_of_neg (by simp [hempty]), ih, List.flatMap_cons,
        List.isEmpty_iff.1 hempty]
      rfl
    · rw [List.filter_cons_of_pos (by simp [hempty]), List.flatMap_cons, List.flatMap_append, ih,
        List.flatMap_cons, List.flatMap_map]

/-- The sub-stages have the ids that their bases get in turn. -/
theorem map_id_subStages (mapping : Mapping) (spec : Spec) :
    (build mapping spec).subStages.map SubStage.id =
      (Ids.none.claimAll (spec.subStagePlaces.map SubStagePlace.base)).1 := by
  rw [Spec.subStagePlaces, flatMap_stageEntries]
  exact makeBlocks_claims mapping (.refl _ Ids.none) 0 spec.subStages.entries

/-! ## The warnings, kind by kind -/

/-- The warnings about sub-stages whose ids are not the ones that they asked for. -/
def duplicateWarnings (places : List SubStagePlace) (ids : List String) : List GraphWarning :=
  (places.zip ids).filterMap fun (place, id) =>
    if id = place.base then none
    else some (.duplicateSubStage (stageId place.category place.stage) place.name id)

/-- The warnings about stages that declare no sub-stages. -/
def emptyStageWarnings (spec : Spec) : List GraphWarning :=
  (spec.stageEntries.filter fun entry => Spec.subStagesOf entry = []).map fun entry =>
    .emptyStage (stageId entry.1 entry.2.1)

/-- The warnings about stages that the overall line names and that are not declared. -/
def missingWarnings (spec : Spec) : List GraphWarning :=
  (spec.outlinePlaces.filter fun place => place ∉ spec.places).map fun place =>
    .outlineStageMissing place.1 place.2

theorem exists_of_mem_duplicateWarnings {places : List SubStagePlace} {ids : List String}
    {w : GraphWarning} (h : w ∈ duplicateWarnings places ids) :
    ∃ owner name id, w = .duplicateSubStage owner name id := by
  obtain ⟨⟨place, id⟩, -, hsome⟩ := List.mem_filterMap.1 h
  dsimp only at hsome
  split at hsome
  · cases hsome
  · exact ⟨_, _, _, (Option.some.inj hsome).symm⟩

theorem duplicateWarnings_append {places places' : List SubStagePlace} {ids ids' : List String}
    (h : places.length = ids.length) :
    duplicateWarnings (places ++ places') (ids ++ ids') =
      duplicateWarnings places ids ++ duplicateWarnings places' ids' := by
  rw [duplicateWarnings, List.zip_append h, List.filterMap_append]
  rfl

theorem duplicateWarnings_eq_nil_iff {places : List SubStagePlace} {ids : List String}
    (h : places.length = ids.length) :
    duplicateWarnings places ids = [] ↔ ids = places.map SubStagePlace.base := by
  induction places generalizing ids with
  | nil =>
    rw [List.length_eq_zero_iff.1 h.symm]
    exact iff_of_true rfl rfl
  | cons place places ih =>
    obtain ⟨id, ids, rfl⟩ := List.exists_cons_of_length_eq_add_one h.symm
    have hrest := ih (Nat.succ.inj h)
    unfold duplicateWarnings at hrest ⊢
    rw [List.zip_cons_cons, List.filterMap_cons, List.map_cons, List.cons.injEq]
    by_cases hid : id = place.base
    · simp only [hid, if_true, true_and]
      exact hrest
    · simp only [hid, if_false, false_and, List.cons_ne_nil]

section Shown

variable {entries : List (Category × String × String)} {stages : List StageNode}

/-- What is reported of the ids, stage by stage, is what is reported of all of them. -/
theorem flatMap_duplicateWarnings
    (h : List.Forall₂ (fun entry s => StageNode.Shows s entry) entries stages) :
    (stages.flatMap fun s => duplicateWarnings
        (s.subStages.map fun sub => ⟨s.category, s.name, sub.name⟩) (s.subStages.map SubStage.id)) =
      duplicateWarnings (entries.flatMap Spec.subStagesOf)
        ((stages.flatMap StageNode.subStages).map SubStage.id) := by
  induction h with
  | nil => rfl
  | @cons entry s entries stages hshows _ ih =>
    have hlength : (Spec.subStagesOf entry).length = (s.subStages.map SubStage.id).length := by
      rw [hshows.subStagesOf_eq, List.length_map, List.length_map]
    rw [List.flatMap_cons, List.flatMap_cons, List.flatMap_cons, List.map_append,
      duplicateWarnings_append hlength, ih, hshows.subStagesOf_eq]

theorem flatMap_emptyStage
    (h : List.Forall₂ (fun entry s => StageNode.Shows s entry) entries stages) :
    (stages.flatMap fun s =>
        if s.subStages.isEmpty then [GraphWarning.emptyStage (stageId s.category s.name)] else []) =
      (entries.filter fun entry => Spec.subStagesOf entry = []).map fun entry =>
        .emptyStage (stageId entry.1 entry.2.1) := by
  induction h with
  | nil => rfl
  | @cons entry s entries stages hshows _ ih =>
    have hempty : Spec.subStagesOf entry = [] ↔ s.subStages.isEmpty = true := by
      rw [hshows.subStagesOf_eq, List.map_eq_nil_iff, List.isEmpty_iff]
    rw [List.flatMap_cons, ih, hshows.category, hshows.name]
    by_cases hsubs : s.subStages.isEmpty = true
    · rw [if_pos hsubs, List.filter_cons_of_pos (by simpa using hempty.2 hsubs)]
      rfl
    · rw [if_neg hsubs, List.filter_cons_of_neg (by simpa using mt hempty.1 hsubs)]
      rfl

end Shown

/-- What is odd about one stage, with its id spelled out. -/
theorem stageWarnings_eq {s : StageNode} (h : s.id = stageId s.category s.name) :
    stageWarnings s =
      duplicateWarnings (s.subStages.map fun sub => ⟨s.category, s.name, sub.name⟩)
          (s.subStages.map SubStage.id) ++
        if s.subStages.isEmpty then [.emptyStage (stageId s.category s.name)] else [] := by
  rw [stageWarnings, duplicateWarnings, List.zip_map', List.filterMap_map, h]
  rfl

theorem mem_places {spec : Spec} {c : Category} {stage : String} :
    (c, stage) ∈ spec.places ↔ (spec.stagesOf c).contains stage = true := by
  rw [← map_stageEntries, List.mem_map, Table.contains, Option.isSome_iff_exists]
  constructor
  · rintro ⟨⟨c', stage', expr⟩, hentry, heq⟩
    cases heq
    exact ⟨expr, mem_stageEntries.1 hentry⟩
  · rintro ⟨expr, hexpr⟩
    exact ⟨(c, stage, expr), mem_stageEntries.2 hexpr, rfl⟩

theorem outlineWarnings_eq (spec : Spec) : outlineWarnings spec = missingWarnings spec := by
  have hgroup : ∀ group : Spec.OutlineGroup,
      (group.stages.filter fun stage => !(spec.stagesOf group.category).contains stage).map
          (GraphWarning.outlineStageMissing group.category) =
        ((group.stages.map fun stage => (group.category, stage)).filter fun place =>
          place ∉ spec.places).map fun place => .outlineStageMissing place.1 place.2 := by
    intro group
    rw [List.filter_map, List.map_map]
    refine congrArg (List.map _) (List.filter_congr fun stage _ => ?_)
    simp [mem_places]
  rw [outlineWarnings, missingWarnings, Spec.outlinePlaces, List.filter_flatMap, List.map_flatMap]
  simp only [hgroup]

/-- The warnings of a built graph, kind by kind. -/
theorem warnings_build_perm (mapping : Mapping) (spec : Spec) :
    (build mapping spec).warnings.Perm
      (duplicateWarnings spec.subStagePlaces ((build mapping spec).subStages.map SubStage.id) ++
        emptyStageWarnings spec ++ missingWarnings spec) := by
  have hshown := stages_shown mapping spec
  have hstages : (build mapping spec).stages.flatMap stageWarnings =
      (build mapping spec).stages.flatMap fun s =>
        duplicateWarnings (s.subStages.map fun sub => ⟨s.category, s.name, sub.name⟩)
            (s.subStages.map SubStage.id) ++
          if s.subStages.isEmpty then [.emptyStage (stageId s.category s.name)] else [] :=
    List.flatMap_congr fun s hs => stageWarnings_eq (id_of_mem_stages hs)
  have hwarnings : (build mapping spec).warnings =
      (build mapping spec).stages.flatMap stageWarnings ++ outlineWarnings spec := rfl
  rw [hwarnings, hstages, outlineWarnings_eq]
  refine List.Perm.append_right _ ((List.flatMap_append_perm _ _ _).symm.trans ?_)
  rw [flatMap_duplicateWarnings hshown, flatMap_emptyStage hshown]
  exact List.Perm.refl _

/-- A stage is reported as missing exactly if the overall line names it and it is not declared. -/
theorem outlineStageMissing_mem_warnings_iff {mapping : Mapping} {spec : Spec} {c : Category}
    {stage : String} :
    .outlineStageMissing c stage ∈ (build mapping spec).warnings ↔
      (c, stage) ∈ spec.outlinePlaces ∧ (c, stage) ∉ spec.places := by
  rw [(warnings_build_perm mapping spec).mem_iff, List.mem_append, or_iff_right]
  · simp only [missingWarnings, List.mem_map, List.mem_filter, decide_eq_true_eq]
    constructor
    · rintro ⟨place, hplace, heq⟩
      cases heq
      exact hplace
    · exact fun h => ⟨(c, stage), h, rfl⟩
  · intro hmem
    rcases List.mem_append.1 hmem with hmem | hmem
    · obtain ⟨owner, name, id, heq⟩ := exists_of_mem_duplicateWarnings hmem
      cases heq
    · obtain ⟨entry, -, heq⟩ := List.mem_map.1 hmem
      cases heq

/-! ## Nothing to report -/

theorem length_subStagePlaces (mapping : Mapping) (spec : Spec) :
    spec.subStagePlaces.length = ((build mapping spec).subStages.map SubStage.id).length := by
  rw [map_id_subStages, Ids.length_claimAll, List.length_map]

/-- As many sub-stages are counted as are reported. -/
theorem duplicateCount_build (mapping : Mapping) (spec : Spec) :
    (build mapping spec).duplicateCount =
      (duplicateWarnings spec.subStagePlaces
        ((build mapping spec).subStages.map SubStage.id)).length := by
  rw [duplicateCount, (warnings_build_perm mapping spec).countP_eq, List.countP_append,
    List.countP_append, List.countP_eq_length.2, List.countP_eq_zero.2, List.countP_eq_zero.2]
  · rfl
  · intro w hw
    obtain ⟨place, -, rfl⟩ := List.mem_map.1 hw
    exact Bool.false_ne_true
  · intro w hw
    obtain ⟨entry, -, rfl⟩ := List.mem_map.1 hw
    exact Bool.false_ne_true
  · intro w hw
    obtain ⟨owner, name, id, rfl⟩ := exists_of_mem_duplicateWarnings hw
    rfl

theorem map_name_subStages (mapping : Mapping) (spec : Spec) :
    (build mapping spec).subStages.map SubStage.name =
      spec.subStagePlaces.map SubStagePlace.name := by
  have hshown := stages_shown mapping spec
  rw [subStages, Spec.subStagePlaces]
  generalize spec.stageEntries = entries, (build mapping spec).stages = stages at hshown
  induction hshown with
  | nil => rfl
  | cons hshows _ ih =>
    rw [List.flatMap_cons, List.flatMap_cons, List.map_append, List.map_append, ih,
      hshows.subStagesOf_eq, List.map_map]
    rfl

/-- The warnings of the graph are what is odd about the specification, each thing once. -/
structure Reports (spec : Spec) (g : Graph) : Prop where
  /-- The sub-stages are those that are declared, in order. -/
  names : g.subStages.map SubStage.name = spec.subStagePlaces.map SubStagePlace.name
  /-- Reported are the sub-stages whose ids are not their bases, the stages without sub-stages and
  the stages that the overall line names and that are not declared. -/
  warnings : g.warnings.Perm
    (duplicateWarnings spec.subStagePlaces (g.subStages.map SubStage.id) ++
      emptyStageWarnings spec ++ missingWarnings spec)
  /-- No sub-stage is reported exactly if the bases are distinct. -/
  distinct : g.duplicateCount = 0 ↔ (spec.subStagePlaces.map SubStagePlace.base).Nodup
  /-- A sub-stage has its base as its id exactly if no sub-stage before it has that id. -/
  kept : ∀ i : Fin spec.subStagePlaces.length,
    (g.subStages.map SubStage.id)[i.val]? = some spec.subStagePlaces[i].base ↔
      spec.subStagePlaces[i].base ∉ (g.subStages.map SubStage.id).take i

/-- The warnings of a built graph report each sub-stage that got another id than it asked for, each
stage without sub-stages, and each stage that only the overall line names. -/
theorem reports_build (mapping : Mapping) (spec : Spec) : Reports spec (build mapping spec) where
  names := map_name_subStages mapping spec
  warnings := warnings_build_perm mapping spec
  distinct := by
    rw [duplicateCount_build, List.length_eq_zero_iff,
      duplicateWarnings_eq_nil_iff (length_subStagePlaces mapping spec), map_id_subStages,
      Ids.claimAll_eq_self_iff]
    exact and_iff_left fun _ _ => List.not_mem_nil
  kept := by
    intro i
    have hi : i < (spec.subStagePlaces.map SubStagePlace.base).length :=
      (List.length_map SubStagePlace.base).symm ▸ i.isLt
    have hkept := Ids.getElem?_claimAll_eq_iff Ids.none hi
    rw [← map_id_subStages mapping, List.getElem_map] at hkept
    exact hkept.trans (and_iff_left List.not_mem_nil)

-- `A-2` is reported because the second `A` has its base, and `T` and `X` once each.
example : (build Mapping.empty (((Spec.ofOverall "AWS\x7bS->X\x7d").insertStage .aws "S"
      "A, A, A-2").insertStage .aws "T" " ")).warnings =
    [.duplicateSubStage "stage-AWS-S" "A" "substage-AWS-S-A-2",
      .duplicateSubStage "stage-AWS-S" "A-2" "substage-AWS-S-A-2-2",
      .emptyStage "stage-AWS-T", .outlineStageMissing .aws "X"] := by
  cbv

end Graph

end Flowline
