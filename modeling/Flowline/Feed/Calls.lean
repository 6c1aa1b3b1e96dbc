import Flowline.Feed.Subscriptions

/-!
# Calls of one consumer

A consumer subscribes and unsubscribes, and lets time pass between. `performAll` carries out such
moves, one after the other. Each subscription to a flow has its own listener, and `received` is what
the listeners of a flow receive.
-/

namespace Flowline.Subscriptions

variable {σ : Type}

/-- What a consumer can do. -/
inductive Move where
  | subscribe (flowName : String) (period : Nat)
  | unsubscribe (flowName : String)
  | unsubscribeAll
  /-- Lets milliseconds pass. -/
  | advance (n : Nat)
deriving DecidableEq

/-- What a move is answered with. -/
inductive Answer where
  | subscribed (id : Nat)
  /-- Whether there was a subscription. -/
  | unsubscribed (found : Bool)
  | done
deriving DecidableEq

/-- Whether a move ends the subscription to a flow, if there is one. -/
def Move.ends (flowName : String) : Move → Bool
  | subscribe name _ => name == flowName
  | unsubscribe name => name == flowName
  | unsubscribeAll => true
  | advance _ => false

/-- Whether a move is not just about other flows. -/
def Move.isFor (flowName : String) : Move → Bool
  | advance _ => true
  | a => a.ends flowName

def perform (t : Subscriptions σ) : Move → Answer × Subscriptions σ
  | .subscribe flowName period =>
    let (id, t) := t.subscribe flowName period
    (.subscribed id, t)
  | .unsubscribe flowName => (.unsubscribed (t.contains flowName), t.unsubscribe flowName)
  | .unsubscribeAll => (.done, t.unsubscribeAll)
  | .advance n => (.done, t.advance n)

def performAll (t : Subscriptions σ) (moves : List Move) : Subscriptions σ :=
  moves.foldl (fun t a => (t.perform a).2) t

/-- The ids of the subscriptions to a flow that begin with a move. -/
def begun (t : Subscriptions σ) (flowName : String) : Move → List Nat
  | .subscribe name period => if name = flowName then [(t.subscribe name period).1] else []
  | _ => []

/-- The ids of all subscriptions to a flow that begin during moves, in order. -/
def begunAll (t : Subscriptions σ) (flowName : String) : List Move → List Nat
  | [] => []
  | a :: moves => t.begun flowName a ++ (t.perform a).2.begunAll flowName moves

/-- What is told to the listeners of subscriptions, each with the place of its subscription. -/
def toldTo (ids : List Nat) (told : List (Nat × Update)) : List (Nat × Update) :=
  told.filterMap fun (id, u) => (ids.idxOf? id).map fun i => (i, u)

/-- What the listeners of a flow receive during moves, each with the number of the subscription
that it belongs to. -/
def received (t : Subscriptions σ) (flowName : String) (moves : List Move) : List (Nat × Update) :=
  toldTo (t.begunAll flowName moves) (t.performAll moves).feed.told

end Flowline.Subscriptions
