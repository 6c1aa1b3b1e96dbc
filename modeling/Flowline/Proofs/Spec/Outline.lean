import Flowline.Definition.Writing
import Flowline.Spec.Writing
import Flowline.Proofs.Graph.Warnings
import Flowline.Proofs.Text.Arrow

/-!
# A written outline is read back

The groups are searched from left to right, and a name is as long as it can be. The arrow between
two groups begins with a character of names, but what follows that character is neither one nor a
brace, so the search passes over the arrow (`groups_arrow`) and meets the next group at its first
character (`groups_group`).

`outline_outlineText`: the groups that are categories are read as they were written. Hence nothing
is missing from an outline that is written from the specification itself.
-/

namespace Flowline.Spec

open Text Definition

/-- The stage can be written in a group. -/
structure IsOutlineStage (stage : String) : Prop where
  isName : IsName stage
  unbraced : Unbraced stage
  arrowFree : ¬ arrow <:+: stage.toList

instance (stage : String) : Decidable (IsOutlineStage stage) :=
  decidable_of_iff (IsName stage ∧ Unbraced stage ∧ ¬ arrow <:+: stage.toList)
    ⟨fun h => ⟨h.1, h.2.1, h.2.2⟩, fun h => ⟨h.isName, h.unbraced, h.arrowFree⟩⟩

/-- The text can be the name of a group. -/
def IsGroupName (name : String) : Prop := name ≠ "" ∧ ∀ c ∈ name.toList, isGroupNameChar c = true

instance (name : String) : Decidable (IsGroupName name) :=
  @instDecidableAnd _ _ _ (List.decidableBAll (fun c => isGroupNameChar c = true) name.toList)

/-- The group can be written. -/
structure WrittenGroup.IsWritable (group : WrittenGroup) : Prop where
  name : IsGroupName group.name
  stages : ∀ stage ∈ group.stages, IsOutlineStage stage

instance (group : WrittenGroup) : Decidable group.IsWritable :=
  decidable_of_iff (IsGroupName group.name ∧ ∀ stage ∈ group.stages, IsOutlineStage stage)
    ⟨fun h => ⟨h.1, h.2⟩, fun h => ⟨h.name, h.stages⟩⟩

/-- What stands in the braces of a group. -/
def WrittenGroup.content (group : WrittenGroup) : List Char :=
  arrow.intercalate (group.stages.map String.toList)

/-! ## The groups of a written outline -/

section Search

variable {name content : List Char}

theorem braced?_content (h : ∀ c ∈ content, Line.isBrace c = false) (rest : List Char) :
    braced? ('\x7b' :: (content ++ '\x7d' :: rest)) = some (content, rest) := by
  have hinside : ∀ c ∈ content, decide (c ≠ '\x7b' ∧ c ≠ '\x7d') = true := by
    intro c hc
    simpa [Line.isBrace] using h c hc
  rw [braced?, if_pos rfl, List.dropWhile_append_of_pos hinside,
    List.takeWhile_append_of_pos hinside]
  simp

/-- A group that stands at the beginning is the first one. -/
theorem groups_group (hne : name ≠ []) (hname : ∀ c ∈ name, isGroupNameChar c = true)
    (hcontent : ∀ c ∈ content, Line.isBrace c = false) (rest : List Char) :
    groups (name ++ '\x7b' :: (content ++ '\x7d' :: rest)) = (name, content) :: groups rest := by
  obtain ⟨c, tail, rfl⟩ := List.exists_cons_of_ne_nil hne
  obtain ⟨hc, htail⟩ := List.forall_mem_cons.1 hname
  have hdrop : (tail ++ '\x7b' :: (content ++ '\x7d' :: rest)).dropWhile isGroupNameChar =
      '\x7b' :: (content ++ '\x7d' :: rest) := by
    rw [List.dropWhile_append_of_pos htail]
    rfl
  have htake :
      (tail ++ '\x7b' :: (content ++ '\x7d' :: rest)).takeWhile isGroupNameChar = tail := by
    rw [List.takeWhile_append_of_pos htail]
    exact List.append_nil tail
  have hbraced := braced?_content hcontent rest
  rw [List.cons_append, groups, if_pos hc]
  split
  · next content' rest' h =>
    rw [hdrop] at h
    have hsame := h.symm.trans hbraced
    cases hsame
    rw [htake]
  · next h =>
    rw [hdrop] at h
    exact absurd (h.symm.trans hbraced) (by simp)

/-- The arrow between two groups is passed over, though its first character could be that of a
name. -/
theorem groups_arrow (rest : List Char) : groups (' ' :: '-' :: '>' :: rest) = groups rest := by
  have hblank : groups (' ' :: '-' :: '>' :: rest) = groups ('-' :: '>' :: rest) := by
    rw [groups]
    rfl
  have hdash : groups ('-' :: '>' :: rest) = groups ('>' :: rest) := by
    rw [groups]
    rfl
  have hpoint : groups ('>' :: rest) = groups rest := by
    rw [groups]
    rfl
  rw [hblank, hdash, hpoint]

end Search

theorem WrittenGroup.toList_text (group : WrittenGroup) :
    group.text.toList = group.name.toList ++ '\x7b' :: (group.content ++ ['\x7d']) := by
  simp [text, content, arrow, String.toList_append, String.toList_intercalate]

section Written

variable {group : WrittenGroup}

theorem WrittenGroup.IsWritable.unbraced (h : group.IsWritable) :
    ∀ c ∈ group.content, Line.isBrace c = false := by
  have harrow : ∀ c ∈ arrow, Line.isBrace c = false := forall_mem_arrow.2 (by decide)
  intro c hc
  rcases mem_of_mem_intercalate hc with hc | ⟨piece, hpiece, hc⟩
  · exact harrow c hc
  · obtain ⟨stage, hstage, rfl⟩ := List.mem_map.1 hpiece
    exact (h.stages stage hstage).unbraced c hc

/-- The stages of a group are the links of the chain in its braces. -/
theorem WrittenGroup.IsWritable.chain_content (h : group.IsWritable) :
    chain group.content = group.stages := by
  have hpadded : List.Forall₂ (fun name piece => Padded name.toList piece) group.stages
      (group.stages.map String.toList) :=
    List.forall₂_map_right_iff.2 (List.forall₂_same.2 fun stage _ => padded_self stage.toList)
  have hnames : namesOf (group.stages.map String.toList) = group.stages :=
    namesOf_eq_of_padded hpadded fun stage hstage => (h.stages stage hstage).isName
  cases hstages : group.stages with
  | nil => rw [content, hstages]; rfl
  | cons stage rest =>
    have hcuts : Cuts arrow group.content (group.stages.map String.toList) := by
      refine ⟨rfl, List.forall_mem_map.2 fun stage hstage => (h.stages stage hstage).arrowFree, ?_⟩
      rw [hstages]
      exact List.cons_ne_nil _ _
    rw [chain, cuts_iff_splitArrow.1 hcuts, hnames, hstages]

theorem groups_text (h : group.IsWritable) (rest : List Char) :
    groups (group.text.toList ++ rest) = (group.name.toList, group.content) :: groups rest := by
  have hne : group.name.toList ≠ [] := mt String.toList_eq_nil_iff.1 h.name.1
  rw [WrittenGroup.toList_text, List.append_assoc, List.cons_append, List.append_assoc]
  exact groups_group hne h.name.2 h.unbraced rest

end Written

/-- The groups of a written outline are those that were written. -/
theorem groups_outlineText {written : List WrittenGroup} (h : ∀ group ∈ written, group.IsWritable) :
    groups (outlineText written).toList =
      written.map fun group => (group.name.toList, group.content) := by
  rw [outlineText, String.toList_intercalate, List.map_map]
  induction written with
  | nil => rw [List.map_nil, List.intercalate_nil, groups]; rfl
  | cons group rest ih =>
    obtain ⟨hgroup, hrest⟩ := List.forall_mem_cons.1 h
    cases rest with
    | nil =>
      have hlast := groups_text hgroup []
      rw [List.append_nil] at hlast
      rw [List.map_singleton, List.intercalate_singleton, Function.comp, hlast, groups]
      rfl
    | cons next rest =>
      rw [List.map_cons, List.map_cons, List.intercalate_cons_cons, List.append_assoc,
        Function.comp, groups_text hgroup]
      exact congrArg _ ((groups_arrow _).trans (ih hrest))

/-! ## The outline -/

/-- The groups that are categories are read as they were written. -/
theorem map_outline {spec : Spec} {written : List WrittenGroup}
    (h : ∀ group ∈ written, group.IsWritable) (htext : spec.overall = outlineText written) :
    spec.outline.map (fun group => WrittenGroup.mk group.category.token group.stages) =
      written.filter fun group => group.name = "AWS" ∨ group.name = "On-PREM" := by
  rw [outline, htext, groups_outlineText h, List.filterMap_map, List.map_filterMap,
    ← List.filterMap_eq_filter]
  refine List.filterMap_congr fun group hgroup => ?_
  simp only [Function.comp, String.ofList_toList, (h group hgroup).chain_content]
  cases hc : Category.ofToken? group.name with
  | none =>
    have hnot := Category.ofToken?_eq_none_iff.1 hc
    simp [Option.guard, hnot]
  | some c =>
    have hchosen : group.name = "AWS" ∨ group.name = "On-PREM" := by
      by_contra hnot
      rw [Category.ofToken?_eq_none_iff.2 hnot] at hc
      cases hc
    have hname : group.name = c.token := Category.ofToken?_eq_some_iff.1 hc
    simp [Option.guard, hchosen, ← hname]

section Own

variable {spec : Spec} (h : ∀ place ∈ spec.places, IsOutlineStage place.2)
include h

theorem isWritable_of_mem_ownGroups {group : WrittenGroup} (hgroup : group ∈ spec.ownGroups) :
    group.IsWritable := by
  obtain ⟨⟨c, stages⟩, hentry, rfl⟩ := List.mem_map.1 hgroup
  have hname : IsGroupName c.token := by
    cases c <;> decide
  refine ⟨hname, fun stage hstage => h (c, stage) ?_⟩
  exact List.mem_flatMap.2 ⟨(c, stages), hentry, List.mem_map_of_mem hstage⟩

/-- A specification declares the stages of its own outline. -/
theorem mem_places_of_mem_outlinePlaces (htext : spec.overall = outlineText spec.ownGroups)
    {place : Category × String} (hplace : place ∈ spec.outlinePlaces) : place ∈ spec.places := by
  obtain ⟨group, hgroup, hplace⟩ := List.mem_flatMap.1 hplace
  obtain ⟨stage, hstage, rfl⟩ := List.mem_map.1 hplace
  have hread := map_outline (fun _ hgroup => isWritable_of_mem_ownGroups h hgroup) htext
  have hwritten : WrittenGroup.mk group.category.token group.stages ∈ spec.ownGroups :=
    (List.mem_filter.1 (hread ▸ List.mem_map_of_mem hgroup)).1
  obtain ⟨⟨c, stages⟩, hentry, heq⟩ := List.mem_map.1 hwritten
  obtain ⟨hname, hstages⟩ := WrittenGroup.mk.inj heq
  obtain rfl := Category.token_inj hname
  exact List.mem_flatMap.2
    ⟨(group.category, stages), hentry, List.mem_map_of_mem (hstages ▸ hstage)⟩

end Own

/-- A written outline is read as the groups that are categories, in order, each with its stages. If
it is written from the specification itself, no stage of it is missing. -/
theorem outline_outlineText :
    (∀ (written : List WrittenGroup) (subStages : Table Category (Table String String)),
      (∀ group ∈ written, group.IsWritable) →
        (Spec.mk (outlineText written) subStages).outline.map
            (fun group => WrittenGroup.mk group.category.token group.stages) =
          written.filter fun group => group.name = "AWS" ∨ group.name = "On-PREM") ∧
    ∀ (mapping : Mapping) (spec : Spec),
      (∀ place ∈ spec.places, IsOutlineStage place.2) →
        spec.overall = outlineText spec.ownGroups →
          ∀ c stage, .outlineStageMissing c stage ∉ (Graph.build mapping spec).warnings := by
  refine ⟨fun written subStages h => map_outline h rfl, fun mapping spec h htext c stage hmem => ?_⟩
  obtain ⟨hnamed, hnot⟩ := Graph.outlineStageMissing_mem_warnings_iff.1 hmem
  exact hnot (mem_places_of_mem_outlinePlaces h htext hnamed)

/-- Groups with names that are no category, or that end like an arrow begins. -/
def mixedGroups : List WrittenGroup :=
  [⟨"GCP", ["X"]⟩, ⟨"On-PREM", []⟩, ⟨"-", ["-", ">"]⟩, ⟨"AWS", ["A-", "> B, C"]⟩]

/-- A specification with its own outline. -/
def selfOutlined : Spec :=
  ((Spec.ofOverall "On-PREM\x7b>D->E-\x7d ->AWS\x7bA\x7d").insertStage .onPrem ">D" "x").insertStage
    .onPrem "E-" "" |>.insertStage .aws "A" "y"

/-- Of `mixedGroups` the two are read that are categories, and nothing is missing from
`selfOutlined`. -/
theorem outline_outlineText_mixedGroups :
    (∀ group ∈ mixedGroups, group.IsWritable) ∧
    (Spec.mk (outlineText mixedGroups) Table.empty).outline.map
        (fun group => WrittenGroup.mk group.category.token group.stages) =
      [⟨"On-PREM", []⟩, ⟨"AWS", ["A-", "> B, C"]⟩] ∧
    (∀ place ∈ selfOutlined.places, IsOutlineStage place.2) ∧
    selfOutlined.overall = outlineText selfOutlined.ownGroups ∧
    ∀ c stage,
      .outlineStageMissing c stage ∉ (Graph.build Mapping.empty selfOutlined).warnings := by
  have hwritable : ∀ group ∈ mixedGroups, group.IsWritable := by decide
  have hstages : ∀ place ∈ selfOutlined.places, IsOutlineStage place.2 := by decide
  have htext : selfOutlined.overall = outlineText selfOutlined.ownGroups := by decide
  refine ⟨hwritable, ?_, hstages, htext, ?_⟩
  · rw [outline_outlineText.1 mixedGroups Table.empty hwritable]
    decide
  · exact outline_outlineText.2 Mapping.empty selfOutlined hstages htext

end Flowline.Spec
