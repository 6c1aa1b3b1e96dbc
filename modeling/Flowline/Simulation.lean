import Flowline.Monitor.Call
import Flowline.Source.Mock

/-!
# A monitor that the simulation keeps up to date

The simulation is asked for news of one flow at a time, of the flow as it is registered then. What
it gives may be merged at once. `performAll` carries out such fetches and calls of the monitor, one
after the other. Such moves with their answers are the `exchanges`.
-/

namespace Flowline

open Time

/-- A monitor, and how far the simulation of each flow has come. -/
structure Simulation where
  monitor : Monitor
  memory : Mock.Memory

namespace Simulation

/-- Nothing is registered and nothing has been simulated. -/
def empty : Simulation := ⟨Monitor.empty, NameMap.empty⟩

/-- What happens to a simulation. -/
inductive Move where
  | call (c : Monitor.Call)
  /-- The next event of a flow is fetched, and applied if it is to be `merged`. -/
  | fetch (flowName : String) (now : Instant) (merged : Bool)

/-- The flow that a move is about. -/
def Move.flowName : Move → String
  | call c => c.flowName
  | fetch flowName .. => flowName

/-- The next event of a registered flow, and the memory after it. -/
def fetch? (s : Simulation) (flowName : String) (now : Instant) : Option (Event × Mock.Memory) :=
  (s.monitor.snapshot? flowName).map (Mock.fetch now s.memory)

def perform (s : Simulation) : Move → Simulation
  | .call c => { s with monitor := (s.monitor.perform c).2 }
  | .fetch flowName now merged =>
    match s.fetch? flowName now with
    | none => s
    | some (event, memory) =>
      ⟨if merged then (s.monitor.perform (.apply event)).2 else s.monitor, memory⟩

def performAll (s : Simulation) (moves : List Move) : Simulation := moves.foldl perform s

/-! ## Answers -/

/-- What a move is answered with. -/
inductive Reply where
  | called (answer : Monitor.Answer)
  /-- The event of a registered flow, with what it is answered with if it is applied. -/
  | fetched (news : Option (Event × Option Monitor.Answer))

/-- The answer to a move. -/
def reply (s : Simulation) : Move → Reply
  | .call c => .called (s.monitor.perform c).1
  | .fetch flowName now merged => .fetched <| (s.fetch? flowName now).map fun (event, _) =>
      (event, if merged then some (s.monitor.perform (.apply event)).1 else none)

/-- A move with its answer. -/
structure Exchange where
  move : Move
  reply : Reply

/-- Moves that are carried out one after the other, with their answers. -/
def exchanges (s : Simulation) : List Move → List Exchange
  | [] => []
  | a :: moves => ⟨a, s.reply a⟩ :: (s.perform a).exchanges moves

end Simulation

end Flowline
