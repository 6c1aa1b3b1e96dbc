import Flowline.FeedError
import Flowline.Monitor.Registry

/-!
# Sources of statuses

A `Source` is asked for news of one flow at a time. It may remember what it gave before: its
memory is a value that every fetch hands on. A fetch may take time.
-/

namespace Flowline

/-- What a fetch yields. -/
structure Fetch where
  /-- Milliseconds until the result is there. -/
  delay : Nat
  result : Except FeedError Event

/-- The result that is there at once. -/
def Fetch.immediate (result : Except FeedError Event) : Fetch := ⟨0, result⟩

/-- Where statuses come from, with a memory of type `σ`. -/
structure Source (σ : Type) where
  name : String
  /-- Milliseconds between two looks, for every flow, if the source says so. -/
  pollInterval : Option Nat
  /-- News of a flow, and the memory after it. -/
  fetch : σ → Snapshot → Fetch × σ

/-- Milliseconds between two looks at a flow that wants to be looked at every so many seconds. -/
def Source.period {σ : Type} (source : Source σ) (seconds : Nat) : Nat :=
  source.pollInterval.getD (1000 * max seconds 1)

end Flowline
