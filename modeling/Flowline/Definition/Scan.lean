import Flowline.Definition.Line
import Flowline.Spec

/-!
# Reading a flow definition

A definition is read line by line. `step` is the whole table of what a line does in a given
state; `actions` runs it over the lines that are not blank; `Reading.ofActions` collects what
the actions say. Reading never fails: a line that fits nowhere is reported in `dropped`.
-/

namespace Flowline.Definition

open Text

/-- The part of the document that a line stands in: before any header, or after one. -/
inductive Section where
  | none
  | overall
  | subStages
deriving DecidableEq, Inhabited

/-- What earlier lines leave behind for the next one. -/
structure State where
  inside : Section
  /-- The category that stages belong to. Headers do not reset it. -/
  category : Option Category
  /-- Whether the overall line has been read. -/
  overallCaptured : Bool
deriving DecidableEq, Inhabited

/-- Before the first line. -/
def State.initial : State := ⟨.none, none, false⟩

/-- Why a line says nothing. -/
inductive DropReason where
  | outsideSection
  | overallAlreadyCaptured
  | stageBeforeCategory
  | unrecognized
deriving DecidableEq

/-- What a line says. -/
inductive Action where
  | skip
  | captureOverall (text : String)
  | enterCategory (c : Category)
  | recordStage (c : Category) (name content : String)
  | drop (reason : DropReason)
deriving DecidableEq

/-- What a line does: the state after it and what it says. `text` is the line itself. -/
def step (state : State) (line : Line) (text : String) : State × Action :=
  match line with
  | .overallHeader => (⟨.overall, state.category, state.overallCaptured⟩, .skip)
  | .subStagesHeader => (⟨.subStages, state.category, state.overallCaptured⟩, .skip)
  | line =>
    match state.inside with
    | .none => (state, .drop .outsideSection)
    | .overall =>
      if state.overallCaptured then (state, .drop .overallAlreadyCaptured)
      else (⟨.overall, state.category, true⟩, .captureOverall text)
    | .subStages =>
      match line with
      | .category c => (⟨.subStages, some c, state.overallCaptured⟩, .enterCategory c)
      | .stage name content =>
        match state.category with
        | some c => (state, .recordStage c name content)
        | none => (state, .drop .stageBeforeCategory)
      | .openBrace | .closeBrace => (state, .skip)
      | _ => (state, .drop .unrecognized)

/-! ## Documents -/

/-- A line that is not blank, trimmed, with its number counted from one. -/
structure NumberedLine where
  number : Nat
  text : String
deriving DecidableEq

/-- The lines of a document that are not blank. Blank ones count for the numbers. -/
def numberedLines (text : String) : List NumberedLine :=
  ((lines text.toList).zipIdx 1).filterMap fun (line, number) =>
    if trim line = [] then none else some ⟨number, String.ofList (trim line)⟩

/-- What each line says, the state carried from line to line. -/
def actions (state : State) : List NumberedLine → List (NumberedLine × Action)
  | [] => []
  | line :: rest =>
    let (next, action) := step state (Line.classify line.text) line.text
    (line, action) :: actions next rest

/-- A line that said nothing. -/
structure Dropped where
  line : NumberedLine
  reason : DropReason
deriving DecidableEq

/-- Writes what one action says into the specification. -/
def record (spec : Spec) : Action → Spec
  | .captureOverall text => { spec with overall := text }
  | .enterCategory c => spec.enter c
  | .recordStage c name content => spec.insertStage c name content
  | .skip | .drop _ => spec

/-- The meaning of a document and the lines that did not contribute to it. -/
structure Reading where
  spec : Spec
  dropped : List Dropped
deriving DecidableEq

def Reading.ofActions (acts : List (NumberedLine × Action)) : Reading where
  spec := acts.foldl (fun spec a => record spec a.2) (Spec.ofOverall "")
  dropped := acts.filterMap fun (line, action) =>
    match action with
    | .drop reason => some ⟨line, reason⟩
    | _ => none

/-- Reads a definition and reports the lines that say nothing. -/
def read (text : String) : Reading :=
  Reading.ofActions (actions State.initial (numberedLines text))

/-- Reads a definition. -/
def parse (text : String) : Spec := (read text).spec

end Flowline.Definition
