import Flowline.Proofs.Graph.Contents
import Flowline.Proofs.Lists

/-!
# The categories are built apart

All nodes take their ids from one supply, but the ids of a category's nodes begin with its token
(`IsIdOf`), and so does every numbered form of them. So what one category takes never keeps an id
from the other: of two supplies that agree on the ids of a category its nodes get the same ids
(`makeStages_congr`), and the passage over another category changes nothing for it
(`agreeOn_makeStages`).

Hence the stages of a category are those that it gets as if it were the only one (`stagesOf_build`),
from its own entries and its own mapping table (`categories_apart`).
-/

namespace Flowline

/-- Both mappings say the same of the category. -/
def Mapping.AgreeOn (c : Category) (m m' : Mapping) : Prop :=
  match c with
  | .aws => ∀ name, m.aws.get? name = m'.aws.get? name
  | .onPrem => ∀ name, m.onPrem.get? name = m'.onPrem.get? name

theorem Mapping.AgreeOn.refl (c : Category) (m : Mapping) : m.AgreeOn c m := by
  cases c with
  | aws => exact fun _ => rfl
  | onPrem => exact fun _ => rfl

theorem Mapping.AgreeOn.targetFor_eq {c : Category} {m m' : Mapping} (h : m.AgreeOn c m')
    (stage subStage : String) : m.targetFor c stage subStage = m'.targetFor c stage subStage := by
  cases c with
  | aws => rw [targetFor, targetFor, h subStage, h stage]
  | onPrem => rw [targetFor, targetFor, h subStage, h stage]

namespace Graph

/-! ## The ids of a category -/

/-- The id begins like one that the category, a stage of it or a sub-stage of it asks for. -/
inductive IsIdOf (c : Category) : String → Prop where
  | ofCategory (s : String) : IsIdOf c (categoryId c ++ s)
  | ofStage (stage s : String) : IsIdOf c (stageId c stage ++ s)
  | ofSubStage (stage name s : String) : IsIdOf c (subStageId c stage name ++ s)

/-- An id belongs to one category only. -/
theorem IsIdOf.unique {c c' : Category} {id : String} (h : IsIdOf c id) (h' : IsIdOf c' id) :
    c = c' := by
  generalize heq : id = id' at h'
  have hlist := congrArg String.toList heq
  cases h <;> cases h' <;> cases c <;> cases c' <;> first | rfl |
    simp [categoryId, stageId, subStageId, Category.token] at hlist

/-! ## What two supplies give that agree on the ids of a category -/

theorem fst_makeStage (mapping : Mapping) (c : Category) (parentId : String) (index : Nat)
    (ids : Ids) (stage expr : String) :
    (makeStage mapping c parentId index ids stage expr).1 =
      ⟨(ids.claim (stageId c stage)).1, stage, c, parentId,
        link (deriveSubStages expr).1 (makeSubStages mapping c stage (deriveSubStages expr).1
          (ids.claim (stageId c stage)).2 (deriveSubStages expr).2).1,
        .pending, stageLayout index⟩ := rfl

section Congr

variable {c : Category} {mapping mapping' : Mapping} (hmapping : mapping.AgreeOn c mapping')
include hmapping

theorem makeSubStages_congr {a b : Ids} (h : Ids.AgreeOn (IsIdOf c) a b) (stage : String)
    (kind : SubStageKind) (names : List String) :
    (makeSubStages mapping c stage kind a names).1 =
        (makeSubStages mapping' c stage kind b names).1 ∧
      Ids.AgreeOn (IsIdOf c) (makeSubStages mapping c stage kind a names).2
        (makeSubStages mapping' c stage kind b names).2 := by
  induction names generalizing a b with
  | nil => exact ⟨rfl, h⟩
  | cons name names ih =>
    obtain ⟨hid, hclaimed⟩ := h.claim (subStageId c stage name) (.ofSubStage stage name)
    obtain ⟨hsubs, hafter⟩ := ih hclaimed
    have hmade : SubStage.mk (a.claim (subStageId c stage name)).1 name kind none
          (mapping.targetFor c stage name) Record.pending =
        ⟨(b.claim (subStageId c stage name)).1, name, kind, none,
          mapping'.targetFor c stage name, Record.pending⟩ := by
      rw [hid, hmapping.targetFor_eq]
    exact ⟨congrArg₂ List.cons hmade hsubs, hafter⟩

theorem makeStage_congr {a b : Ids} (h : Ids.AgreeOn (IsIdOf c) a b) (parentId : String)
    (index : Nat) (stage expr : String) :
    (makeStage mapping c parentId index a stage expr).1 =
        (makeStage mapping' c parentId index b stage expr).1 ∧
      Ids.AgreeOn (IsIdOf c) (makeStage mapping c parentId index a stage expr).2
        (makeStage mapping' c parentId index b stage expr).2 := by
  obtain ⟨hid, hclaimed⟩ := h.claim (stageId c stage) (.ofStage stage)
  obtain ⟨hsubs, hafter⟩ := makeSubStages_congr hmapping hclaimed stage
    (deriveSubStages expr).1 (deriveSubStages expr).2
  refine ⟨?_, hafter⟩
  rw [fst_makeStage, fst_makeStage, hid, hsubs]

theorem makeStages_congr {a b : Ids} (h : Ids.AgreeOn (IsIdOf c) a b) (parentId : String)
    (index : Nat) (entries : List (String × String)) :
    (makeStages mapping c parentId index a entries).1 =
        (makeStages mapping' c parentId index b entries).1 ∧
      Ids.AgreeOn (IsIdOf c) (makeStages mapping c parentId index a entries).2
        (makeStages mapping' c parentId index b entries).2 := by
  induction entries generalizing index a b with
  | nil => exact ⟨rfl, h⟩
  | cons entry entries ih =>
    obtain ⟨stage, expr⟩ := entry
    obtain ⟨hnode, hmade⟩ := makeStage_congr hmapping h parentId index stage expr
    obtain ⟨hrest, hafter⟩ := ih hmade (index + 1)
    exact ⟨congrArg₂ List.cons hnode hrest, hafter⟩

end Congr

/-! ## What building another category leaves -/

variable {mapping : Mapping} {c c' : Category}

theorem isIdOf_of_mem_claim {ids : Ids} {id : String}
    (h : id ∈ [(ids.claim (categoryId c)).1]) : IsIdOf c id := by
  obtain ⟨s, hs⟩ := ids.exists_idFor_eq_append (categoryId c)
  rw [List.mem_singleton.1 h, Ids.claim, hs]
  exact .ofCategory s

theorem isIdOf_of_mem_makeStages {parentId : String} {index : Nat} {ids : Ids}
    {entries : List (String × String)} {id : String}
    (h : id ∈ (makeStages mapping c parentId index ids entries).1.flatMap StageNode.ids) :
    IsIdOf c id := by
  induction entries generalizing index ids with
  | nil => cases h
  | cons entry entries ih =>
    obtain ⟨stage, expr⟩ := entry
    rw [makeStages, List.flatMap_cons, List.mem_append] at h
    rcases h with h | h
    · rcases List.mem_cons.1 h with rfl | h
      · obtain ⟨s, hs⟩ := ids.exists_idFor_eq_append (stageId c stage)
        rw [fst_makeStage, Ids.claim, hs]
        exact .ofStage stage s
      · obtain ⟨name, s, rfl⟩ := exists_of_mem_makeStage h
        exact .ofSubStage stage name s
    · exact ih h

/-- The ids of a category are in use after another category has been built as they were before. -/
theorem agreeOn_makeStages (hne : c ≠ c') (index : Nat) (ids : Ids)
    (entries : List (String × String)) :
    Ids.AgreeOn (IsIdOf c) ids (makeStages mapping c' (ids.claim (categoryId c')).1 index
      (ids.claim (categoryId c')).2 entries).2 := by
  refine ((ids.hands_claim (categoryId c')).append
    (hands_makeStages mapping c' _ index _ entries)).agreeOn fun id hid h => ?_
  rcases List.mem_append.1 hid with hid | hid
  · exact hne (h.unique (isIdOf_of_mem_claim hid))
  · exact hne (h.unique (isIdOf_of_mem_makeStages hid))

/-! ## A category as if it were the only one -/

/-- The stages that a category gets if nothing has been built before. -/
def stagesAlone (mapping : Mapping) (c : Category) (entries : List (String × String)) :
    List StageNode :=
  (makeStages mapping c (categoryId c) 0 (Ids.none.claim (categoryId c)).2 entries).1

/-- Stages are built for the categories that have an entry. -/
theorem category_of_mem_makeBlocks {index : Nat} {ids : Ids}
    {entries : List (Category × Table String String)} {s : StageNode}
    (h : s ∈ (makeBlocks mapping index ids entries).flatMap Block.stages) :
    s.category ∈ entries.map Prod.fst := by
  obtain ⟨b, hb, hs⟩ := List.mem_flatMap.1 h
  obtain ⟨entry, hentry, hshows⟩ := exists_of_mem_blocks (forall₂_makeBlocks mapping index ids _) hb
  rw [hshows.category_of_mem hs, hshows.name]
  exact List.mem_map_of_mem (List.mem_filter.1 hentry).1

theorem category_of_mem_makeStages {parentId : String} {index : Nat} {ids : Ids}
    {entries : List (String × String)} {s : StageNode}
    (h : s ∈ (makeStages mapping c parentId index ids entries).1) : s.category = c :=
  forall_mem_makeStages (P := fun s => s.category = c) (fun _ _ _ _ => rfl) index ids entries s h

/-- The stages of the first category, if it has any, and those of the others. -/
theorem stages_makeBlocks_cons {index : Nat} {ids : Ids} {stages : Table String String}
    {rest : List (Category × Table String String)} (h : ¬ stages.isEmpty = true) :
    let made := makeStages mapping c (ids.claim (categoryId c)).1 0 (ids.claim (categoryId c)).2
      stages.entries
    (makeBlocks mapping index ids ((c, stages) :: rest)).flatMap Block.stages =
      made.1 ++ (makeBlocks mapping (index + 1) made.2 rest).flatMap Block.stages := by
  rw [makeBlocks, if_neg h]
  exact List.flatMap_cons ..

/-- Whatever has been built before, a category gets the stages that it gets alone, as long as none
of its own ids is in use. -/
theorem filter_stages_makeBlocks {index : Nat} {ids : Ids}
    {entries : List (Category × Table String String)} (hnodup : (entries.map Prod.fst).Nodup)
    (h : Ids.AgreeOn (IsIdOf c) ids Ids.none) :
    ((makeBlocks mapping index ids entries).flatMap Block.stages).filter
        (fun s => s.category == c) =
      stagesAlone mapping c ((Table.find c entries).getD Table.empty).entries := by
  induction entries generalizing index ids with
  | nil => rfl
  | cons entry rest ih =>
    obtain ⟨c', stages⟩ := entry
    obtain ⟨hnot, hnodup⟩ := List.nodup_cons.1 hnodup
    by_cases hempty : stages.isEmpty = true
    · have hskip : makeBlocks mapping index ids ((c', stages) :: rest) =
          makeBlocks mapping index ids rest := by rw [makeBlocks, if_pos hempty]
      rw [hskip, ih hnodup h, Table.find]
      split
      · next hc =>
        rw [Table.find_eq_none (hc ▸ hnot), Option.getD_some, List.isEmpty_iff.1 hempty]
        rfl
      · rfl
    rw [stages_makeBlocks_cons hempty, List.filter_append, Table.find]
    split
    · next hc =>
      subst hc
      -- The categories that come after have other names.
      have hrest : ∀ after, ((makeBlocks mapping (index + 1) after rest).flatMap
          Block.stages).filter (fun s => s.category == c') = [] := by
        refine fun after => List.filter_eq_nil_iff.2 fun s hs heq => hnot ?_
        exact beq_iff_eq.1 heq ▸ category_of_mem_makeBlocks hs
      obtain ⟨hid, hclaimed⟩ := h.claim (categoryId c') .ofCategory
      rw [hrest, List.append_nil, List.filter_eq_self.2 fun s hs =>
        beq_iff_eq.2 (category_of_mem_makeStages hs), hid]
      exact (makeStages_congr (.refl c' mapping) hclaimed _ 0 stages.entries).1
    · next hc =>
      have hfirst : ∀ s ∈ (makeStages mapping c' (ids.claim (categoryId c')).1 0
          (ids.claim (categoryId c')).2 stages.entries).1, ¬ (s.category == c) = true :=
        fun s hs heq => hc ((category_of_mem_makeStages hs).symm.trans (beq_iff_eq.1 heq))
      rw [List.filter_eq_nil_iff.2 hfirst, List.nil_append]
      exact ih hnodup ((agreeOn_makeStages (Ne.symm hc) 0 ids stages.entries).symm.trans h)

/-- The stages of a category are those that it gets alone. -/
theorem stagesOf_build (mapping : Mapping) (spec : Spec) (c : Category) :
    (build mapping spec).stagesOf c = stagesAlone mapping c (spec.stagesOf c).entries :=
  filter_stages_makeBlocks spec.subStages.keys_nodup fun _ _ => Iff.rfl

/-! ## The warnings of a category -/

/-- The id of the stage that a warning is about. A stage that is missing has none. -/
def warnedId? : GraphWarning → Option String
  | .duplicateSubStage stageId _ _ => some stageId
  | .emptyStage stageId => some stageId
  | .outlineStageMissing _ _ => none

/-- The warnings about the stages of a category, in order. -/
def warningsOf (g : Graph) (c : Category) : List GraphWarning :=
  g.warnings.filter fun w => (g.stagesOf c).any fun s => warnedId? w == some s.id

theorem warnedId?_of_mem_stageWarnings {s : StageNode} {w : GraphWarning}
    (h : w ∈ stageWarnings s) : warnedId? w = some s.id := by
  rcases List.mem_append.1 h with h | h
  · obtain ⟨sub, -, hsub⟩ := List.mem_filterMap.1 h
    split at hsub
    · cases hsub
    · cases hsub
      rfl
  · split at h
    · rw [List.mem_singleton.1 h]
      rfl
    · cases h

theorem warnedId?_of_mem_outlineWarnings {spec : Spec} {w : GraphWarning}
    (h : w ∈ outlineWarnings spec) : warnedId? w = none := by
  obtain ⟨group, -, h⟩ := List.mem_flatMap.1 h
  obtain ⟨stage, -, rfl⟩ := List.mem_map.1 h
  rfl

/-- They are what is odd about the stages of the category. -/
theorem warningsOf_build (mapping : Mapping) (spec : Spec) (c : Category) :
    (build mapping spec).warningsOf c =
      ((build mapping spec).stagesOf c).flatMap stageWarnings := by
  have hwarnings : (build mapping spec).warnings =
      (build mapping spec).stages.flatMap stageWarnings ++ outlineWarnings spec := rfl
  have houtline : ∀ w ∈ outlineWarnings spec, ¬ ((build mapping spec).stagesOf c).any
      (fun s => warnedId? w == some s.id) = true := by
    intro w hw hany
    obtain ⟨s, -, hs⟩ := List.any_eq_true.1 hany
    rw [warnedId?_of_mem_outlineWarnings hw] at hs
    cases hs
  rw [warningsOf, hwarnings, List.filter_append, List.filter_eq_nil_iff.2 houtline,
    List.append_nil]
  refine filter_flatMap_eq fun s hs w hw => ?_
  rw [warnedId?_of_mem_stageWarnings hw, Bool.eq_iff_iff, List.any_eq_true]
  constructor
  · rintro ⟨t, ht, hid⟩
    obtain ⟨htmem, htcategory⟩ := List.mem_filter.1 ht
    have hst : s = t := eq_of_id_eq hs htmem (Option.some.inj (beq_iff_eq.1 hid))
    exact hst ▸ htcategory
  · intro hcategory
    exact ⟨s, List.mem_filter.2 ⟨hs, hcategory⟩, beq_self_eq_true _⟩

/-! ## Independence -/

/-- Categories and stages have the ids that they ask for. The stages of a category, with all that
belongs to them, and the warnings about them come from its own entries and its own mapping table,
whatever else the specification declares and in whichever order. -/
theorem categories_apart :
    (∀ (mapping : Mapping) (spec : Spec),
      (build mapping spec).categories.map CategoryNode.id =
          spec.shown.map (fun entry => "category-" ++ entry.1.token) ∧
        (build mapping spec).stages.map StageNode.id =
          spec.places.map fun (c, stage) => "stage-" ++ c.token ++ "-" ++ stage) ∧
    ∀ (mapping mapping' : Mapping) (spec spec' : Spec) (c : Category),
      spec.stagesOf c = spec'.stagesOf c → mapping.AgreeOn c mapping' →
        (build mapping spec).stagesOf c = (build mapping' spec').stagesOf c ∧
          (build mapping spec).warningsOf c = (build mapping' spec').warningsOf c := by
  constructor
  · intro mapping spec
    have hids : (build mapping spec).categories.map CategoryNode.id =
        ((build mapping spec).categories.map CategoryNode.name).map categoryId := by
      rw [List.map_map]
      exact List.map_congr_left (categoryId_of_mem_build spec)
    have hnames : (build mapping spec).categories.map CategoryNode.name =
        spec.shown.map Prod.fst := map_name_blocks (forall₂_blocks mapping spec)
    refine ⟨?_, map_id_stages spec⟩
    rw [hids, hnames, List.map_map]
    rfl
  · intro mapping mapping' spec spec' c hstages hmapping
    have hsame : (build mapping spec).stagesOf c = (build mapping' spec').stagesOf c := by
      rw [stagesOf_build, stagesOf_build, hstages]
      exact (makeStages_congr hmapping (.refl _ _) _ 0 _).1
    exact ⟨hsame, by rw [warningsOf_build, warningsOf_build, hsame]⟩

/-- The cloud has a stage with colliding names and an empty one, after the premises. -/
def premisesFirst : Spec :=
  (((Spec.ofOverall "AWS\x7bS->U\x7d").insertStage .onPrem "S" "A, A").insertStage .aws "S"
    "A, A, A-2").insertStage .aws "T" ""

/-- The cloud has the same stages, before a stage of the premises. -/
def cloudFirst : Spec :=
  (((Spec.ofOverall "").insertStage .aws "S" "A, A, A-2").insertStage .aws "T" "").insertStage
    .onPrem "X" "A -> B"

/-- The stages of the cloud and their warnings are the same in both, whatever is said about the
premises. -/
theorem categories_apart_reordered :
    premisesFirst.stagesOf .aws = cloudFirst.stagesOf .aws ∧
    Mapping.AgreeOn .aws Mapping.empty (Mapping.parse "" "A: 1, 2") ∧
    (build Mapping.empty premisesFirst).stagesOf .aws =
      (build (Mapping.parse "" "A: 1, 2") cloudFirst).stagesOf .aws ∧
    (build Mapping.empty premisesFirst).warningsOf .aws =
      [.duplicateSubStage "stage-AWS-S" "A" "substage-AWS-S-A-2",
        .duplicateSubStage "stage-AWS-S" "A-2" "substage-AWS-S-A-2-2",
        .emptyStage "stage-AWS-T"] := by
  have hstages : premisesFirst.stagesOf .aws = cloudFirst.stagesOf .aws := by decide
  have hmapping : Mapping.AgreeOn .aws Mapping.empty (Mapping.parse "" "A: 1, 2") := fun _ => rfl
  obtain ⟨hsame, hwarnings⟩ := categories_apart.2 _ _ _ _ _ hstages hmapping
  refine ⟨hstages, hmapping, hsame, ?_⟩
  rw [hwarnings, warningsOf_build]
  decide

end Graph

end Flowline
