import Flowline.Proofs.Definition.Writing
import Flowline.Registration

/-!
# The two forms of a definition

A structured definition lists stages (`FlowDefinition.listing`): those that have a name, under the
keys that name a category. Its meaning is that of its listing (`toSpec_structured`), by the two
nested folds of `toSpec`, and the text that is written for the listing has the same meaning
(`toSpec_structured_eq_toSpec_text`). Keys that are the same once they are trimmed merge in both
forms alike, since both write their stages one after the other.
-/

namespace Flowline.FlowDefinition

open Text Definition

/-- The stages that a structured definition writes, as they are given. -/
def listing (subStages : Table String (Table String String)) : Listing :=
  subStages.entries.filterMap fun (key, stages) =>
    (Category.ofToken? (trimmed key)).map fun c =>
      (c, stages.entries.filter fun stage => trimmed stage.1 ≠ "")

theorem named_listing (subStages : Table String (Table String String)) :
    Named (listing subStages) := by
  intro block hblock stage hstage
  obtain ⟨⟨key, stages⟩, -, hblock⟩ := List.mem_filterMap.1 hblock
  obtain ⟨c, -, rfl⟩ := Option.map_eq_some_iff.1 hblock
  exact of_decide_eq_true (List.mem_filter.1 hstage).2

/-- Stages without a name are left out before or while writing. -/
theorem foldl_addStage (c : Category) (spec : Spec) (stages : List (String × String)) :
    stages.foldl (addStage c) (spec.enter c) =
      spec.insertBlock (c, stages.filter fun stage => trimmed stage.1 ≠ "") := by
  rw [Spec.insertBlock, List.foldl_filter]
  congr 1
  funext spec stage
  by_cases hname : trimmed stage.1 = ""
  · rw [addStage, if_pos hname, if_neg (by simp [hname])]
  · rw [addStage, if_neg hname, if_pos (by simp [hname])]

/-- The meaning of a structured definition is that of what it lists. -/
theorem toSpec_structured (overall : String) (subStages : Table String (Table String String)) :
    (structured overall subStages).toSpec = Spec.ofListing overall (listing subStages) := by
  rw [toSpec, Spec.ofListing, listing, List.foldl_filterMap]
  congr 1
  funext spec entry
  rw [addCategory]
  cases hc : Category.ofToken? (trimmed entry.1) with
  | none => simp [hc]
  | some c =>
    simp only [hc, Option.map_some]
    exact foldl_addStage c spec entry.2.entries

/-- A structured definition means the same as the text that is written for it. -/
theorem toSpec_structured_eq_toSpec_text {overall : String}
    {subStages : Table String (Table String String)}
    (h : Writable overall (listing subStages)) (headed : Bool) :
    (structured overall subStages).toSpec =
      (text (write headed overall (listing subStages))).toSpec := by
  rw [toSpec_structured]
  exact (congrArg Reading.spec (read_write h (named_listing subStages) headed)).symm

/-- Two keys that name one category, two names of one stage, a name that is blank, a key that names
no category, and a category without stages. -/
theorem toSpec_structured_eq_toSpec_text_merged :
    let overall := " AWS\x7bA->B\x7d "
    let subStages := Table.ofList [
      (" AWS ", Table.ofList [("A ", "x, y"), ("B", ""), ("\t", "z"), ("A", " x -> y ")]),
      ("GCP", Table.ofList [("C", "x")]),
      ("On-PREM", Table.empty),
      ("AWS", Table.ofList [(" B", "u"), ("D", "v")])]
    Writable overall (listing subStages) ∧
      (structured overall subStages).toSpec =
        (text (write true overall (listing subStages))).toSpec := by
  intro overall subStages
  have h : Writable overall (listing subStages) := ⟨by decide, by decide⟩
  exact ⟨h, toSpec_structured_eq_toSpec_text h true⟩

end Flowline.FlowDefinition
