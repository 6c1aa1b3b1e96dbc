import Flowline.Feed.Subscriptions
import Flowline.Render.Tree
import Flowline.Source.Mock

/-!
# Following a flow

A `Watch` subscribes to one flow and shows its tree after every update. `look` lets the updates
of one period happen; `textsUpTo` looks on until a limit is reached. Showing takes no time: an
update is shown before the next one is due, with the monitor as the update left it.
-/

namespace Flowline.Command

/-- Someone who follows a flow. -/
structure Watch where
  name : String
  /-- Milliseconds between two looks. -/
  period : Nat
  feed : Feed Mock.Memory

namespace Watch

/-- Subscribes to a flow. -/
def start (monitor : Monitor) (source : Source Mock.Memory) (name : String) (period : Nat) :
    Watch :=
  ⟨name, period, ((Feed.start monitor source NameMap.empty).subscribe name period).2⟩

/-- What is shown for an update, when the monitor is `m`. -/
def shown (m : Monitor) (name : String) : Update → String
  | .status .. => ((m.view? name).map fun v => Render.tree name v ++ "\n").getD ""
  | .error _ => ""

/-- What is shown of the next update, and the watch when the one after that is due. -/
def look (w : Watch) : String × Watch :=
  let feed := w.feed.nextInstant
  let news := feed.told.drop w.feed.told.length
  (String.join (news.map fun told => shown feed.monitor w.name told.2),
   { w with feed := feed.advance (w.period - 1) })

/-- What is shown of so many updates, one after the other. -/
def texts : Nat → Watch → List String
  | 0, _ => []
  | n + 1, w =>
    let (text, next) := w.look
    text :: texts n next

/-- What is shown of so many updates. -/
def shows (n : Nat) (w : Watch) : String := String.join (w.texts n)

/-- Whether another update is waited for after this many. -/
def goesOn (limit : Option Nat) (seen : Nat) : Bool := limit.all (seen < ·)

/-- What is shown of one update after the other, of which some have been seen, up to a limit. It is
looked at after an update. -/
def textsUpTo (limit seen : Nat) (w : Watch) : List String :=
  let (text, next) := w.look
  text :: if goesOn (some limit) (seen + 1) then textsUpTo limit (seen + 1) next else []
termination_by limit - seen
decreasing_by
  have hmore : seen + 1 < limit := by simpa [goesOn] using ‹goesOn (some limit) (seen + 1) = true›
  omega

/-- The number of updates that are shown up to a limit: there is always one. -/
def updates (limit : Nat) : Nat := max limit 1

end Watch

end Flowline.Command
