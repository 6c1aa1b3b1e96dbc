import Flowline.Monitor.Basic

/-!
# Calls of a monitor

A monitor changes by calls of three kinds: a flow is registered, a flow is removed, an event is
applied. `perform` carries one out and gives its answer. The calls that a monitor has had, each
with its answer, are its `exchanges`.
-/

namespace Flowline.Monitor

/-- What a monitor is called for. -/
inductive Call where
  | register (r : Registration)
  | remove (flowName : String)
  | apply (e : Event)
deriving DecidableEq

/-- The flow that a call is about. -/
def Call.flowName : Call → String
  | register r => r.flowName
  | remove name => name
  | apply e => e.flowName

/-- What a call is answered with. -/
inductive Answer where
  | registered (s : Snapshot)
  /-- Whether there was such a flow. -/
  | removed (found : Bool)
  | applied (result : Except FeedError StatusMap)

/-- Carries out a call. An event that is refused leaves the monitor as it is. -/
def perform (m : Monitor) : Call → Answer × Monitor
  | .register r => (.registered (m.register r).1, (m.register r).2)
  | .remove name => (.removed (m.contains name), m.remove name)
  | .apply e =>
    match m.apply e with
    | .ok (map, m') => (.applied (.ok map), m')
    | .error err => (.applied (.error err), m)

section Perform

variable {m : Monitor} {e : Event}

theorem perform_apply_of_contains (h : m.contains e.flowName = true) :
    m.perform (.apply e) =
      (.applied (.ok (m.board.mapAfter e)), { m with board := m.board.apply e }) := by
  have happly : m.apply e = .ok (m.board.mapAfter e, { m with board := m.board.apply e }) :=
    if_pos h
  simp only [perform, happly]

theorem perform_apply_of_not_contains (h : m.contains e.flowName = false) :
    m.perform (.apply e) = (.applied (.error (.flowNotRegistered e.flowName)), m) := by
  have happly : m.apply e = .error (.flowNotRegistered e.flowName) := by
    apply if_neg
    rw [← contains, h]
    exact Bool.false_ne_true
  simp only [perform, happly]

/-- An event does not change which flows there are. -/
theorem registry_perform_apply : (m.perform (.apply e)).2.registry = m.registry := by
  cases hc : m.contains e.flowName with
  | true => rw [perform_apply_of_contains hc]
  | false => rw [perform_apply_of_not_contains hc]

end Perform

/-- Carries out calls, one after the other. -/
def performAll (m : Monitor) (calls : List Call) : Monitor :=
  calls.foldl (fun m c => (m.perform c).2) m

/-- A call with its answer. -/
structure Exchange where
  call : Call
  answer : Answer

/-- Calls that are carried out one after the other, with their answers. -/
def exchanges (m : Monitor) : List Call → List Exchange
  | [] => []
  | c :: calls => ⟨c, (m.perform c).1⟩ :: (m.perform c).2.exchanges calls

end Flowline.Monitor
