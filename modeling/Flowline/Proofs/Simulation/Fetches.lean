import Flowline.Proofs.Render.Tree
import Flowline.Proofs.Simulation.Progress

/-!
# Fetches of one flow

A flow is fetched some times in a row, at the instants that a clock shows, and what the fetches
yield is merged into its records, which begin with a pending one for each sub-stage (`viewAfter`).
The clock has no say in the statuses (`status_mapAfter`): these are told by the number of
the fetches.
-/

namespace Flowline

open Simulation StatusMap Time

namespace Mock

/-- The events of the first fetches of a flow, and the memory after them. -/
def fetches (clock : Nat → Instant) (s : Snapshot) : Nat → List Event × Memory
  | 0 => ([], NameMap.empty)
  | n + 1 =>
    let (events, memory) := fetches clock s n
    let (event, memory) := fetch (clock n) memory s
    (events ++ [event], memory)

/-- The records of a flow after its first fetches. -/
def mapAfter (clock : Nat → Instant) (s : Snapshot) (n : Nat) (map : StatusMap) : StatusMap :=
  map.mergeAll ((fetches clock s n).1.map Event.stages)

/-- The graph of a flow after its first fetches, which began when it had just been registered. -/
def viewAfter (clock : Nat → Instant) (s : Snapshot) (n : Nat) : View :=
  s.graph.project (mapAfter clock s n (StatusMap.seed NameMap.empty s.graph.subStageNames))

variable {clock clock' : Nat → Instant} {s : Snapshot}

theorem progressOf_fetches (clock : Nat → Instant) (s : Snapshot) (n : Nat) :
    progressOf (fetches clock s n).2 s =
      place s.version (subStages s).length n := by
  induction n with
  | zero => exact (place_zero _ _).symm
  | succ n ih =>
    have hfetch := fetch_of_progressOf (clock n) ih
    have hmemory : (fetches clock s (n + 1)).2 = (fetch (clock n) (fetches clock s n).2 s).2 := rfl
    rw [hmemory, hfetch, progressOf_insert, if_pos ⟨rfl, rfl⟩]

theorem mapAfter_succ (n : Nat) (map : StatusMap) :
    mapAfter clock s (n + 1) map = (mapAfter clock s n map).merge
      (fetch (clock n) (fetches clock s n).2 s).1.stages := by
  have hevents : (fetches clock s (n + 1)).1 =
      (fetches clock s n).1 ++ [(fetch (clock n) (fetches clock s n).2 s).1] := rfl
  rw [mapAfter, hevents, List.map_append, List.map_singleton, mergeAll_concat, mapAfter]

/-- The status of a sub-stage after one more fetch, be it none, depends on the one before. -/
theorem status_mapAfter_succ (n : Nat) (map : StatusMap) (name : String) :
    ((mapAfter clock s (n + 1) map).get? name).map Record.status =
      match (news (clock n) (subStages s) (n + 1) name).map Patch.status with
      | none => ((mapAfter clock s n map).get? name).map Record.status
      | some status => some <| status.getD <|
          (((mapAfter clock s n map).get? name).map Record.status).getD .pending := by
  have hrecord : (recordOf (mapAfter clock s n map) name).status =
      (((mapAfter clock s n map).get? name).map Record.status).getD .pending := by
    unfold recordOf
    cases (mapAfter clock s n map).get? name with
    | none => rfl
    | some r => rfl
  have hfetch := fetch_of_progressOf (clock n) (progressOf_fetches clock s n)
  rw [← hrecord, mapAfter_succ, get?_merge, hfetch, get?_patchesAfter]
  cases news (clock n) (subStages s) (n + 1) name with
  | none => rfl
  | some p => rfl

theorem news_status (now now' : Instant) (names : List String) (k : Nat) (name : String) :
    (news now names k name).map Patch.status = (news now' names k name).map Patch.status := by
  unfold news
  split
  · rfl
  · split
    · rfl
    · rfl

/-- The statuses do not depend on the clock, nor on anything else of the records at first. -/
theorem status_mapAfter {map map' : StatusMap} {name : String}
    (h : (map.get? name).map Record.status = (map'.get? name).map Record.status) (n : Nat) :
    ((mapAfter clock s n map).get? name).map Record.status =
      ((mapAfter clock' s n map').get? name).map Record.status := by
  induction n with
  | zero => exact h
  | succ n ih =>
    rw [status_mapAfter_succ, status_mapAfter_succ, ih, news_status (clock n) (clock' n)]

/-- What is shown after fetches does not depend on the clock, nor on how often the flow has been
registered before, as long as its sub-stages are pending. -/
theorem agreeOn_mapAfter {map map' : StatusMap} {names : List String}
    (h : ∀ name ∈ names, (map.get? name).map Record.status = (map'.get? name).map Record.status)
    (n : Nat) : (mapAfter clock s n map).AgreeOn names (mapAfter clock' s n map') := by
  have hshown : ∀ (map : StatusMap) (name : String),
      (map.shown name).status = ((map.get? name).map Record.status).getD .unknown := by
    intro map name
    unfold StatusMap.shown
    cases map.get? name with
    | none => rfl
    | some r => rfl
  intro name hname
  rw [hshown, hshown, status_mapAfter (h name hname)]

end Mock

end Flowline
