import Flowline.Source.Basic

/-!
# The simulation

The simulation walks through the sub-stages of a flow in their order, each name once. Every fetch
completes the running sub-stage and starts the next one; a new version of the flow starts over.
-/

namespace Flowline.Mock

open Time

/-- How far the simulation of a flow has come. -/
structure Progress where
  /-- The version that is simulated. -/
  version : Nat
  completed : Nat
  /-- Whether the first one that is not completed is running. -/
  running : Bool
deriving DecidableEq

/-- The progress of a version that has not begun. -/
def Progress.start (version : Nat) : Progress := ⟨version, 0, false⟩

/-- How far the simulation of each flow has come. -/
abbrev Memory := NameMap Progress

/-- The names without repetitions, each where it is first. -/
def distinct (names : List String) : List String :=
  names.foldl (fun seen name => if name ∈ seen then seen else seen ++ [name]) []

/-- The patch for a sub-stage that has completed. -/
def completedPatch (now : Instant) : Patch :=
  { Patch.ofStatus .completed with endTime := .set now }

/-- The patch for a sub-stage that has started. -/
def startedPatch (now : Instant) : Patch :=
  { Patch.ofStatus .running with startTime := .set now, endTime := .clear }

/-- The name at a position with its patch, if there is one. -/
def patchAt (names : List String) (index : Nat) (p : Patch) : List (String × Patch) :=
  match names[index]? with
  | some name => [(name, p)]
  | none => []

/-- The next patches of a flow with these sub-stages, and the progress after them. -/
def step (now : Instant) (names : List String) (p : Progress) : List (String × Patch) × Progress :=
  let finished := if p.running then patchAt names p.completed (completedPatch now) else []
  let completed := if p.running then p.completed + 1 else p.completed
  let started := patchAt names completed (startedPatch now)
  (finished ++ started, ⟨p.version, completed, !started.isEmpty⟩)

/-- The progress of the version that is registered. -/
def progressOf (m : Memory) (s : Snapshot) : Progress :=
  match m.get? s.name with
  | some p => if p.version = s.version then p else Progress.start s.version
  | none => Progress.start s.version

/-- The next event of a flow. -/
def fetch (now : Instant) (m : Memory) (s : Snapshot) : Event × Memory :=
  let (patches, progress) := step now (distinct s.graph.subStageNames) (progressOf m s)
  (⟨s.name, now, NameMap.ofList patches⟩, m.insert s.name progress)

/-- The simulation as a source. -/
def source (now : Instant) (pollInterval : Option Nat) : Source Memory where
  name := "mock"
  pollInterval := pollInterval
  fetch m s :=
    let (event, m) := fetch now m s
    (Fetch.immediate (.ok event), m)

end Flowline.Mock
