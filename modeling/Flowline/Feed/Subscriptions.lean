import Flowline.Feed.Basic

/-!
# One subscription per flow

`Subscriptions` are those of one consumer, who has at most one per flow: subscribing to a flow
again ends the earlier subscription first.
-/

namespace Flowline

/-- The subscriptions of one consumer. -/
structure Subscriptions (σ : Type) where
  feed : Feed σ
  /-- The subscription to each flow, by its id. -/
  ids : NameMap Nat

namespace Subscriptions

variable {σ : Type}

/-- No subscriptions yet. -/
def start (feed : Feed σ) : Subscriptions σ := ⟨feed, NameMap.empty⟩

/-- Ends the subscription to a flow. Without one nothing happens. -/
def unsubscribe (t : Subscriptions σ) (flowName : String) : Subscriptions σ :=
  match t.ids.get? flowName with
  | some id => ⟨t.feed.unsubscribe [id], t.ids.erase flowName⟩
  | none => t

/-- Subscribes to a flow, in place of an earlier subscription, and answers with its id. -/
def subscribe (t : Subscriptions σ) (flowName : String) (period : Nat) : Nat × Subscriptions σ :=
  let t := t.unsubscribe flowName
  let (id, feed) := t.feed.subscribe flowName period
  (id, ⟨feed, t.ids.insert flowName id⟩)

/-- Ends all subscriptions. -/
def unsubscribeAll (t : Subscriptions σ) : Subscriptions σ :=
  ⟨t.feed.unsubscribe t.ids.values, NameMap.empty⟩

def contains (t : Subscriptions σ) (flowName : String) : Bool := t.ids.contains flowName

/-- The names of the flows that are subscribed to, in order. -/
def flows (t : Subscriptions σ) : List String := t.ids.names

def size (t : Subscriptions σ) : Nat := t.ids.size

def isEmpty (t : Subscriptions σ) : Bool := t.ids.isEmpty

/-- Lets milliseconds pass. -/
def advance (t : Subscriptions σ) (n : Nat) : Subscriptions σ := { t with feed := t.feed.advance n }

end Subscriptions

end Flowline
