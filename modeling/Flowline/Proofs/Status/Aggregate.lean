import Flowline.Projection
import Mathlib.Logic.Basic
import Mathlib.Tactic.SplitIfs

/-!
# Counts and aggregates

The aggregate of some parts depends only on which statuses occur among them (`aggregate_congr`).
One lemma for each status that an aggregate can be says when it is this one.

Parts may be aggregated in groups, and the groups once more. `aggregate_map_aggregate` says what
comes of it: a failure, an error or a part that runs shows through both levels in the same order of
precedence. Only a group without parts tells the two levels from one: it is pending, so it keeps
the whole from being completed (`aggregate_map_aggregate_eq_iff`).
-/

namespace Flowline

namespace StatusCounts

/-- The counts of a list of statuses add up to its length. -/
theorem total_ofList (statuses : List Status) :
    (ofList statuses).total = statuses.length := by
  induction statuses with
  | nil => rfl
  | cons s statuses ih =>
    simp only [ofList, total, List.count_cons, List.length_cons] at ih ⊢
    cases s <;> simp <;> omega

theorem completed_eq_total_iff (statuses : List Status) :
    (ofList statuses).completed = (ofList statuses).total ↔ ∀ s ∈ statuses, s = .completed := by
  rw [total_ofList]
  exact List.count_eq_length.trans (forall₂_congr fun _ _ => eq_comm)

theorem ofList_replicate_pending (n : Nat) :
    ofList (List.replicate n .pending) = ⟨n, 0, 0, 0, 0, 0⟩ := by
  simp [ofList, List.count_replicate]

end StatusCounts

namespace Status

/-! ## One level -/

section Parts

variable {parts : List Status}

/-- What the parts are together, by what occurs among them. -/
theorem aggregate_eq (parts : List Status) :
    aggregate parts =
      if failed ∈ parts then failed
      else if error ∈ parts then error
      else if running ∈ parts then running
      else if parts ≠ [] ∧ ∀ s ∈ parts, s = completed then completed
      else pending := by
  simp only [aggregate, List.contains_iff_mem, List.all_eq_true, beq_iff_eq]

/-- The order of the parts does not matter, nor how often each of them occurs. -/
theorem aggregate_congr {parts' : List Status} (h : ∀ s, s ∈ parts ↔ s ∈ parts') :
    aggregate parts = aggregate parts' := by
  have hnil : parts = [] ↔ parts' = [] := by
    rw [List.eq_nil_iff_forall_not_mem, List.eq_nil_iff_forall_not_mem]
    exact forall_congr' fun s => not_congr (h s)
  simp only [aggregate_eq, h, ne_eq, hnil]

theorem aggregate_eq_failed_iff : aggregate parts = failed ↔ failed ∈ parts := by
  rw [aggregate_eq]
  split_ifs with hfailed
  · simp [hfailed]
  all_goals simp [hfailed]

theorem aggregate_eq_error_iff : aggregate parts = error ↔ failed ∉ parts ∧ error ∈ parts := by
  rw [aggregate_eq]
  split_ifs with hfailed herror
  · simp [hfailed]
  · simp [hfailed, herror]
  all_goals simp [herror]

theorem aggregate_eq_running_iff :
    aggregate parts = running ↔ failed ∉ parts ∧ error ∉ parts ∧ running ∈ parts := by
  rw [aggregate_eq]
  split_ifs with hfailed herror hrunning
  · simp [hfailed]
  · simp [herror]
  · simp [hfailed, herror, hrunning]
  all_goals simp [hrunning]

theorem aggregate_eq_completed_iff :
    aggregate parts = completed ↔ parts ≠ [] ∧ ∀ s ∈ parts, s = completed := by
  have hnot : ∀ s, s ∈ parts → s ≠ completed → ¬ (parts ≠ [] ∧ ∀ s ∈ parts, s = completed) :=
    fun s hs hne hall => hne (hall.2 s hs)
  rw [aggregate_eq]
  split_ifs with hfailed herror hrunning hall
  · exact iff_of_false (by decide) (hnot failed hfailed (by decide))
  · exact iff_of_false (by decide) (hnot error herror (by decide))
  · exact iff_of_false (by decide) (hnot running hrunning (by decide))
  · exact iff_of_true rfl hall
  · exact iff_of_false (by decide) hall

theorem aggregate_ne_unknown : aggregate parts ≠ unknown := by
  rw [aggregate_eq]
  split_ifs <;> decide

/-- Parts that are all pending are pending together. -/
theorem aggregate_of_forall_pending (h : ∀ s ∈ parts, s = pending) : aggregate parts = pending := by
  have hnot : ∀ s, s ≠ pending → s ∉ parts := fun s hne hs => hne (h s hs)
  have hcompleted : ¬ (parts ≠ [] ∧ ∀ s ∈ parts, s = completed) := by
    rintro ⟨hne, hall⟩
    obtain ⟨s, hs⟩ := List.exists_mem_of_ne_nil parts hne
    exact absurd (hall s hs) (h s hs ▸ by decide)
  rw [aggregate_eq, if_neg (hnot failed (by decide)), if_neg (hnot error (by decide)),
    if_neg (hnot running (by decide)), if_neg hcompleted]

end Parts

/-! ## Two levels -/

section Groups

variable {groups : List (List Status)}

theorem failed_mem_map_aggregate :
    failed ∈ groups.map aggregate ↔ failed ∈ groups.flatten := by
  simp only [List.mem_map, aggregate_eq_failed_iff, List.mem_flatten]

theorem error_mem_map_aggregate (hfailed : failed ∉ groups.flatten) :
    error ∈ groups.map aggregate ↔ error ∈ groups.flatten := by
  rw [List.mem_map, List.mem_flatten]
  refine exists_congr fun group => and_congr_right fun hgroup => ?_
  rw [aggregate_eq_error_iff]
  have hnot : failed ∉ group := fun h => hfailed (List.mem_flatten.2 ⟨group, hgroup, h⟩)
  exact and_iff_right hnot

theorem running_mem_map_aggregate (hfailed : failed ∉ groups.flatten)
    (herror : error ∉ groups.flatten) :
    running ∈ groups.map aggregate ↔ running ∈ groups.flatten := by
  rw [List.mem_map, List.mem_flatten]
  refine exists_congr fun group => and_congr_right fun hgroup => ?_
  rw [aggregate_eq_running_iff]
  have hnot : failed ∉ group := fun h => hfailed (List.mem_flatten.2 ⟨group, hgroup, h⟩)
  have hnot' : error ∉ group := fun h => herror (List.mem_flatten.2 ⟨group, hgroup, h⟩)
  exact (and_iff_right hnot).trans (and_iff_right hnot')

/-- All groups are completed together if none is empty and all their parts are completed. -/
theorem forall_mem_map_aggregate :
    (∀ s ∈ groups.map aggregate, s = completed) ↔
      [] ∉ groups ∧ ∀ s ∈ groups.flatten, s = completed := by
  simp only [List.forall_mem_map, aggregate_eq_completed_iff, List.mem_flatten]
  constructor
  · intro h
    refine ⟨fun hnil => (h [] hnil).1 rfl, ?_⟩
    rintro s ⟨group, hgroup, hs⟩
    exact (h group hgroup).2 s hs
  · rintro ⟨hnil, h⟩ group hgroup
    exact ⟨fun heq => hnil (heq ▸ hgroup), fun s hs => h s ⟨group, hgroup, hs⟩⟩

/-- What groups of parts are together. -/
theorem aggregate_map_aggregate (groups : List (List Status)) :
    aggregate (groups.map aggregate) =
      if failed ∈ groups.flatten then failed
      else if error ∈ groups.flatten then error
      else if running ∈ groups.flatten then running
      else if groups ≠ [] ∧ [] ∉ groups ∧ ∀ s ∈ groups.flatten, s = completed then completed
      else pending := by
  rw [aggregate_eq]
  simp only [forall_mem_map_aggregate, ne_eq, List.map_eq_nil_iff]
  by_cases hfailed : failed ∈ groups.flatten
  · rw [if_pos (failed_mem_map_aggregate.2 hfailed), if_pos hfailed]
  rw [if_neg (mt failed_mem_map_aggregate.1 hfailed), if_neg hfailed]
  by_cases herror : error ∈ groups.flatten
  · rw [if_pos ((error_mem_map_aggregate hfailed).2 herror), if_pos herror]
  rw [if_neg (mt (error_mem_map_aggregate hfailed).1 herror), if_neg herror]
  exact if_congr (running_mem_map_aggregate hfailed herror) rfl rfl

theorem flatten_eq_nil_iff (hnil : [] ∉ groups) : groups.flatten = [] ↔ groups = [] := by
  rw [List.flatten_eq_nil_iff, List.eq_nil_iff_forall_not_mem]
  exact forall_congr' fun group =>
    ⟨fun h hgroup => hnil (h hgroup ▸ hgroup), fun h hgroup => absurd hgroup h⟩

/-- Two levels are as good as one, unless all parts are completed and there is a group besides
that has none. -/
theorem aggregate_map_aggregate_eq_iff :
    aggregate (groups.map aggregate) = aggregate groups.flatten ↔
      ¬ (groups.flatten ≠ [] ∧ (∀ s ∈ groups.flatten, s = completed) ∧ [] ∈ groups) := by
  rw [aggregate_map_aggregate, aggregate_eq groups.flatten]
  by_cases hall : ∀ s ∈ groups.flatten, s = completed
  · have hnot : ∀ s, s ≠ completed → s ∉ groups.flatten := fun s hne hs => hne (hall s hs)
    rw [if_neg (hnot failed (by decide)), if_neg (hnot failed (by decide)),
      if_neg (hnot error (by decide)), if_neg (hnot error (by decide)),
      if_neg (hnot running (by decide)), if_neg (hnot running (by decide))]
    by_cases hnil : [] ∈ groups
    · by_cases hflatten : groups.flatten = [] <;> simp [hnil, hflatten]
    · refine iff_of_true (if_congr ?_ rfl rfl) fun h => hnil h.2.2
      rw [ne_eq, ne_eq, flatten_eq_nil_iff hnil]
      exact and_congr_right fun _ => and_iff_right hnil
  · simp only [hall, false_and, and_false, not_false_eq_true, if_false]

end Groups

end Status

end Flowline
