import Flowline.Feed.Basic
import Flowline.Monitor.Call

/-!
# What happens to a feed

Time passes, the monitor is called by others, subscriptions begin and end: `performAll` carries out
such moves, one after the other. Whenever things happen that are due, the subscriptions take turns,
and `turns` are all that they take, in order.
-/

namespace Flowline.Feed

variable {σ : Type}

/-- What can happen to a feed. -/
inductive Move where
  /-- Milliseconds pass. -/
  | advance (n : Nat)
  /-- Everything happens that is due. -/
  | settle
  | call (c : Monitor.Call)
  | subscribe (flowName : String) (period : Nat)
  | cancel (ids : List Nat)
  | unsubscribe (ids : List Nat)
deriving DecidableEq

/-- Whether a move ends a subscription. -/
def Move.ends (id : Nat) : Move → Bool
  | cancel ids => ids.contains id
  | unsubscribe ids => ids.contains id
  | _ => false

def perform (f : Feed σ) : Move → Feed σ
  | .advance n => f.advance n
  | .settle => f.settle
  | .call c => { f with monitor := (f.monitor.perform c).2 }
  | .subscribe flowName period => (f.subscribe flowName period).2
  | .cancel ids => f.cancel ids
  | .unsubscribe ids => f.unsubscribe ids

def performAll (f : Feed σ) (moves : List Move) : Feed σ := moves.foldl perform f

/-! ## Turns -/

/-- A subscription acts. -/
structure Turn (σ : Type) where
  before : Feed σ
  subscription : Subscription
  after : Feed σ

/-- What the listener is told. -/
def Turn.news (t : Turn σ) : List Update :=
  (t.after.told.drop t.before.told.length).map Prod.snd

/-- Lets a subscription act and set its timer anew. -/
def takeTurn (f : Feed σ) (s : Subscription) : Feed σ :=
  let (g, phase) := f.act s
  { g with subscriptions := g.subscriptions ++ [{ s with phase := phase }] }

/-- The turns of subscriptions that act one after the other. -/
def turnsAll (f : Feed σ) : List Subscription → List (Turn σ)
  | [] => []
  | s :: rest =>
    if s.period = 0 then turnsAll f rest
    else ⟨f, s, (f.act s).1⟩ :: turnsAll (f.takeTurn s) rest

/-- The turns that are due at this instant. -/
def settleTurns (f : Feed σ) : List (Turn σ) :=
  let (due, others) := f.subscriptions.partition (Subscription.isDue f.now)
  turnsAll { f with subscriptions := others } due

/-- The turns while milliseconds pass. -/
def advanceTurns : Nat → Feed σ → List (Turn σ)
  | 0, _ => []
  | n + 1, f => f.settleTurns ++ advanceTurns n f.nextInstant

/-- The turns during a move. -/
def moveTurns (f : Feed σ) : Move → List (Turn σ)
  | .advance n => advanceTurns n f
  | .settle => f.settleTurns
  | .unsubscribe ids => if ids.any f.isLive then (f.cancel ids).settleTurns else []
  | _ => []

/-- The turns during moves. -/
def turns (f : Feed σ) : List Move → List (Turn σ)
  | [] => []
  | a :: moves => f.moveTurns a ++ (f.perform a).turns moves

/-- What of all that is told is told to the listener of a subscription. -/
def heardIn (id : Nat) (told : List (Nat × Update)) : List Update :=
  told.filterMap fun (id', u) => if id' = id then some u else none

/-- What the listener of a subscription has heard. -/
def heard (f : Feed σ) (id : Nat) : List Update := heardIn id f.told

end Flowline.Feed
