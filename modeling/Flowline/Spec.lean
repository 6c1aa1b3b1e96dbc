import Flowline.Category
import Flowline.Table
import Flowline.Digest.Sha256

/-!
# Flow specifications

A `Spec` is what a flow definition says once its notation is gone: the overall line, and per
category the stages with their sub-stage expressions, both in the order of first mention.
`fingerprint` tells definitions apart: it is the digest of `hashedText`, a text that spells out
the whole specification.
-/

namespace Flowline

/-- The meaning of a flow definition. -/
structure Spec where
  /-- The overall line, which hints at the order of the stages. -/
  overall : String
  /-- Stage names with their sub-stage expressions, by category. -/
  subStages : Table Category (Table String String)
deriving DecidableEq, Inhabited

namespace Spec

/-- The specification with an overall line and no categories. -/
def ofOverall (overall : String) : Spec := ⟨overall, Table.empty⟩

/-- The specification with an entry for the category, new ones at the end. -/
def enter (spec : Spec) (c : Category) : Spec :=
  { spec with subStages := spec.subStages.ensure c Table.empty }

/-- Writes the expression of a stage, at its old place if the category has the stage. -/
def insertStage (spec : Spec) (c : Category) (stage expr : String) : Spec :=
  { spec with
    subStages := spec.subStages.alter c fun stages => (stages.getD Table.empty).insert stage expr }

/-- The stages of a category, none if the category has no entry. -/
def stagesOf (spec : Spec) (c : Category) : Table String String :=
  (spec.subStages.get? c).getD Table.empty

theorem get?_subStages (spec : Spec) (c : Category) :
    spec.subStages.get? c =
      if c ∈ spec.subStages.keys then some (spec.stagesOf c) else none := by
  rw [stagesOf]
  cases h : spec.subStages.get? c with
  | none =>
    rw [if_neg]
    rw [← Table.contains_iff, Table.contains, h]
    exact Bool.false_ne_true
  | some stages =>
    rw [if_pos]
    · rfl
    · rw [← Table.contains_iff, Table.contains, h]
      rfl

theorem stagesOf_enter (spec : Spec) (c c' : Category) :
    (spec.enter c).stagesOf c' = spec.stagesOf c' := by
  rw [stagesOf, enter, Table.ensure, Table.get?_alter, stagesOf]
  by_cases h : c = c'
  · subst h
    rw [if_pos rfl]
    rfl
  · rw [if_neg h]

theorem stagesOf_insertStage (spec : Spec) (c c' : Category) (stage expr : String) :
    (spec.insertStage c stage expr).stagesOf c' =
      if c = c' then (spec.stagesOf c).insert stage expr else spec.stagesOf c' := by
  rw [stagesOf, insertStage, Table.get?_alter]
  split
  · rfl
  · rfl

/-- The number of stage entries. -/
def stageCount (spec : Spec) : Nat := (spec.subStages.values.map Table.size).foldr (· + ·) 0

/-! ## Fingerprint -/

/-- A stage entry as it stands in the hashed text. -/
def hashedStage (entry : String × String) : String := "\n" ++ entry.1 ++ "\x7b" ++ entry.2 ++ "\x7d"

/-- A category with its stages as it stands in the hashed text. -/
def hashedCategory (entry : Category × Table String String) : String :=
  "\n[" ++ entry.1.token ++ "]" ++ String.join (entry.2.entries.map hashedStage)

/-- The text that the fingerprint is taken of. -/
def hashedText (spec : Spec) : String :=
  spec.overall ++ String.join (spec.subStages.entries.map hashedCategory)

/-- Tells definitions apart: the SHA-256 digest of the hashed text, in hexadecimal. -/
def fingerprint (spec : Spec) : String := Digest.sha256Hex spec.hashedText.toUTF8

end Spec

end Flowline
