import Flowline.Definition.Line
import Flowline.Spec

/-!
# Writing a flow definition

A definition is written from an overall line and a `Listing` of stages: the overall line under its
header, and under the other header each category's token followed by one line `name { expr }` for
each of its stages. Everything is written as it is given.

* `write`: the text.
* `Writable`: each part fits on its line and cannot be taken for another kind of line.
* `Spec.canonical`, `Spec.WellFormed`: the text of a specification, and the specifications that can
  be read from a text.
-/

namespace Flowline

open Text

namespace Definition

/-- Stages by category, in the order of a text. A category may stand in it more than once. -/
abbrev Listing := List (Category × List (String × String))

/-- The line of a stage. -/
def stageText (stage : String × String) : String := stage.1 ++ " \x7b " ++ stage.2 ++ " \x7d"

/-- The lines of a category and its stages. -/
def categoryTexts (block : Category × List (String × String)) : List String :=
  block.1.token :: block.2.map stageText

/-- The overall line under its header. If the line is blank it is left out, and its header is
written only if `headed`. -/
def overallTexts (headed : Bool) (overall : String) : List String :=
  if trimmed overall = "" then
    if headed then ["Overall flow"] else []
  else ["Overall flow", overall]

/-- The lines of a definition. -/
def texts (headed : Bool) (overall : String) (listing : Listing) : List String :=
  overallTexts headed overall ++ "Sub-stages" :: listing.flatMap categoryTexts

/-- The text of a definition. -/
def write (headed : Bool) (overall : String) (listing : Listing) : String :=
  unlines (texts headed overall listing)

/-! ## What can be written -/

def OneLine (s : String) : Prop := '\n' ∉ s.toList

def Unbraced (s : String) : Prop := ∀ c ∈ s.toList, Line.isBrace c = false

/-- The text, trimmed, does not begin like a header. -/
def NoHeader (s : String) : Prop :=
  Line.isOverallHeader (trim s.toList) = false ∧ Line.isSubStagesHeader (trim s.toList) = false

instance (s : String) : Decidable (OneLine s) := inferInstanceAs (Decidable (_ ∉ _))

instance (s : String) : Decidable (Unbraced s) :=
  List.decidableBAll (fun c => Line.isBrace c = false) s.toList

instance (s : String) : Decidable (NoHeader s) := inferInstanceAs (Decidable (_ ∧ _))

/-- The stage can be written on a line. -/
structure WritableStage (stage : String × String) : Prop where
  name : OneLine stage.1 ∧ Unbraced stage.1 ∧ NoHeader stage.1
  expr : OneLine stage.2 ∧ Unbraced stage.2

instance (stage : String × String) : Decidable (WritableStage stage) :=
  decidable_of_iff ((OneLine stage.1 ∧ Unbraced stage.1 ∧ NoHeader stage.1) ∧
    OneLine stage.2 ∧ Unbraced stage.2) ⟨fun h => ⟨h.1, h.2⟩, fun h => ⟨h.name, h.expr⟩⟩

/-- Each part of the definition can be written on a line. -/
structure Writable (overall : String) (listing : Listing) : Prop where
  overall : OneLine overall ∧ NoHeader overall
  stages : ∀ block ∈ listing, ∀ stage ∈ block.2, WritableStage stage

end Definition

namespace Spec

open Definition

/-- The stages of the specification, by category. -/
def listing (spec : Spec) : Listing :=
  spec.subStages.entries.map fun entry => (entry.1, entry.2.entries)

/-- The text of the specification. -/
def canonical (headed : Bool) (spec : Spec) : String := write headed spec.overall spec.listing

/-- A stage as it can be read from a text. -/
structure WellFormedStage (stage : String × String) : Prop where
  writable : WritableStage stage
  name_ne : stage.1 ≠ ""
  name_trimmed : IsTrimmed stage.1.toList
  expr_trimmed : IsTrimmed stage.2.toList

/-- The specification can be read from a text: everything in it is trimmed and can be written, and
no stage is without a name. -/
structure WellFormed (spec : Spec) : Prop where
  overall : OneLine spec.overall ∧ NoHeader spec.overall
  overall_trimmed : IsTrimmed spec.overall.toList
  stages : ∀ c name expr, (spec.stagesOf c).get? name = some expr → WellFormedStage (name, expr)

end Spec

end Flowline
