import Flowline.Monitor.Call
import Mathlib.Data.Multiset.ZeroCons

/-!
# Calls that overlap

Many callers use one monitor at the same time. A call is carried out in steps, and between two of
its steps any steps of other calls may come.

* Registering a flow takes a version, then publishes the snapshot, then seeds the map.
* Removing a flow drops it from the registry, then drops its map from the board.
* Applying an event locks the board and asks the registry whether the flow is there. If not, the
  event is refused. If so, it is merged, and the board stays locked until then.

The registry and the board have a lock each, so seeding and dropping a map wait for an event that is
being merged, but taking a version and changing the registry do not.
-/

namespace Flowline.Monitor

/-- What a call has to do next. -/
inductive Task where
  | takeVersion (r : Registration)
  | publish (s : Snapshot)
  | seed (s : Snapshot)
  | dropFlow (name : String)
  | dropMap (name : String)
  | check (e : Event)

/-- What a call has to do first. -/
def Call.task : Call → Task
  | .register r => .takeVersion r
  | .remove name => .dropFlow name
  | .apply e => .check e

/-- A monitor with the calls that are in progress. -/
structure Shared where
  monitor : Monitor
  /-- What the calls have to do that do not hold the board, in no order. -/
  tasks : Multiset Task
  /-- The accepted event that holds the board. -/
  merging : Option Event

namespace Shared

/-- No call is in progress. -/
def idle (m : Monitor) : Shared := ⟨m, 0, none⟩

def IsIdle (s : Shared) : Prop := s.tasks = 0 ∧ s.merging = none

end Shared

/-- What can happen to a shared monitor: a call begins, or one in progress takes a step. -/
inductive Move where
  | call (c : Call)
  | takeVersion (r : Registration)
  | publish (s : Snapshot)
  | seed (s : Snapshot)
  | dropFlow (name : String)
  | dropMap (name : String)
  | accept (e : Event)
  | refuse (e : Event)
  | merge (e : Event)

/-- One move. A step on the board is taken only while no event is being merged. -/
inductive Step : Shared → Move → Shared → Prop
  | call {m ts held} (c : Call) : Step ⟨m, ts, held⟩ (.call c) ⟨m, c.task ::ₘ ts, held⟩
  | takeVersion {m ts held} (r : Registration) :
      Step ⟨m, .takeVersion r ::ₘ ts, held⟩ (.takeVersion r)
        ⟨{ m with registry := m.registry.takeVersion.2 },
          .publish (.ofRegistration m.registry.takeVersion.1 r) ::ₘ ts, held⟩
  | publish {m ts held} (x : Snapshot) :
      Step ⟨m, .publish x ::ₘ ts, held⟩ (.publish x)
        ⟨{ m with registry := m.registry.publish x }, .seed x ::ₘ ts, held⟩
  | seed {m ts} (x : Snapshot) :
      Step ⟨m, .seed x ::ₘ ts, none⟩ (.seed x) ⟨{ m with board := m.board.seed x }, ts, none⟩
  | dropFlow {m ts held} (name : String) :
      Step ⟨m, .dropFlow name ::ₘ ts, held⟩ (.dropFlow name)
        ⟨{ m with registry := m.registry.remove name }, .dropMap name ::ₘ ts, held⟩
  | dropMap {m ts} (name : String) :
      Step ⟨m, .dropMap name ::ₘ ts, none⟩ (.dropMap name)
        ⟨{ m with board := m.board.remove name }, ts, none⟩
  | accept {m ts} (e : Event) (registered : m.contains e.flowName = true) :
      Step ⟨m, .check e ::ₘ ts, none⟩ (.accept e) ⟨m, ts, some e⟩
  | refuse {m ts} (e : Event) (unregistered : m.contains e.flowName = false) :
      Step ⟨m, .check e ::ₘ ts, none⟩ (.refuse e) ⟨m, ts, none⟩
  | merge {m ts} (e : Event) :
      Step ⟨m, ts, some e⟩ (.merge e) ⟨{ m with board := m.board.apply e }, ts, none⟩

/-- Moves one after the other: an interleaving of any number of calls. -/
inductive Run (s : Shared) : List Move → Shared → Prop
  | nil : Run s [] s
  | concat {moves t a u} (run : Run s moves t) (step : Step t a u) : Run s (moves ++ [a]) u

/-- Every state that the moves lead through has the property. -/
def Always (P : Shared → Prop) (s : Shared) (moves : List Move) : Prop :=
  ∀ before after t, moves = before ++ after → Run s before t → P t

end Flowline.Monitor
