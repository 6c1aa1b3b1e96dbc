import Flowline.Monitor.Basic
import Flowline.Source.Basic

/-!
# Subscriptions

A subscription looks after one flow: it asks the source at once and then again and again at a
fixed pace, merges what it gets into the monitor and tells its listener. Time is counted in
milliseconds. At every instant the subscriptions that are due act one after the other, in the
order in which they set their timers; `advance` lets time pass.

* A tick that comes while a fetch is still going on waits for its end.
* A tick that is late by more than `tolerance` sets the pace anew.
-/

namespace Flowline

/-- What a listener is told. -/
inductive Update where
  /-- An event was merged. -/
  | status (event : Event) (map : StatusMap)
  | error (e : FeedError)
deriving DecidableEq

/-- What a subscription does. -/
inductive Phase where
  /-- Waits for its next tick. -/
  | waiting (tick : Nat)
  /-- Waits for the result of a fetch. -/
  | fetching (nextTick : Nat) (finish : Nat) (result : Except FeedError Event)

/-- When a phase ends. -/
def Phase.due : Phase → Nat
  | waiting tick => tick
  | fetching _ finish _ => finish

/-- Looks after one flow. -/
structure Subscription where
  id : Nat
  flowName : String
  /-- Milliseconds between two ticks. Without any it ends before its first tick. -/
  period : Nat
  phase : Phase

/-- Whether a subscription acts at an instant. -/
def Subscription.isDue (now : Nat) (s : Subscription) : Bool := s.phase.due ≤ now

/-- The subscriptions with what they work on. -/
structure Feed (σ : Type) where
  /-- The instant, in milliseconds. -/
  now : Nat
  monitor : Monitor
  source : Source σ
  /-- The memory of the source. -/
  memory : σ
  /-- The subscriptions that are going on, in the order in which they set their timers. -/
  subscriptions : List Subscription
  /-- The id of the next subscription. -/
  nextId : Nat
  /-- What the listeners were told, by the ids of the subscriptions, first things first. -/
  told : List (Nat × Update)

namespace Feed

variable {σ : Type}

/-- No subscriptions yet. -/
def start (monitor : Monitor) (source : Source σ) (memory : σ) : Feed σ :=
  ⟨0, monitor, source, memory, [], 0, []⟩

/-! ## Acting -/

/-- Tells the listener of a subscription. -/
def tell (f : Feed σ) (id : Nat) (u : Update) : Feed σ := { f with told := f.told ++ [(id, u)] }

/-- Merges the result of a fetch, and tells the listener of what came of it. -/
def deliver (f : Feed σ) (id : Nat) : Except FeedError Event → Feed σ
  | .error e => f.tell id (.error e)
  | .ok event =>
    match f.monitor.apply event with
    | .error e => f.tell id (.error e)
    | .ok (map, monitor) => { f with monitor := monitor }.tell id (.status event map)

/-- Milliseconds that a tick may be late without setting the pace anew. -/
def tolerance : Nat := 5

/-- The tick after one that was set for `tick` and came at `now`. -/
def tickAfter (period tick now : Nat) : Nat :=
  if tick + tolerance < now then now + period else tick + period

/-- Does what a tick asks for. -/
def tick (f : Feed σ) (s : Subscription) (tick : Nat) : Feed σ × Phase :=
  let next := tickAfter s.period tick f.now
  match f.monitor.snapshot? s.flowName with
  | none => (f.tell s.id (.error (.flowNotRegistered s.flowName)), .waiting next)
  | some snapshot =>
    let (fetch, memory) := f.source.fetch f.memory snapshot
    let f := { f with memory := memory }
    if fetch.delay = 0 then (f.deliver s.id fetch.result, .waiting next)
    else (f, .fetching next (f.now + fetch.delay) fetch.result)

/-- Does the ticks that are due, up to a number of them. -/
def ticks (s : Subscription) : Nat → Feed σ → Phase → Feed σ × Phase
  | 0, f, phase => (f, phase)
  | n + 1, f, .waiting tick =>
    if tick ≤ f.now then
      let (f, phase) := f.tick s tick
      ticks s n f phase
    else (f, .waiting tick)
  | _ + 1, f, phase => (f, phase)

/-- Lets a subscription act. Ticks that are late by no more than the tolerance are made up for,
of which there can be no more than the tolerance and one. -/
def act (f : Feed σ) (s : Subscription) : Feed σ × Phase :=
  match s.phase with
  | .waiting _ => ticks s (tolerance + 1) f s.phase
  | .fetching next finish result =>
    if finish ≤ f.now then ticks s (tolerance + 1) (f.deliver s.id result) (.waiting next)
    else (f, s.phase)

/-- Lets subscriptions act one after the other. Each sets its timer anew and so goes to the end. -/
def actAll (f : Feed σ) : List Subscription → Feed σ
  | [] => f
  | s :: rest =>
    if s.period = 0 then actAll f rest
    else
      let (f, phase) := f.act s
      actAll { f with subscriptions := f.subscriptions ++ [{ s with phase := phase }] } rest

/-- Lets everything happen that is due at this instant. -/
def settle (f : Feed σ) : Feed σ :=
  let (due, others) := f.subscriptions.partition (Subscription.isDue f.now)
  actAll { f with subscriptions := others } due

/-! ## Time -/

/-- Goes to the next instant, after everything that is due at this one. -/
def nextInstant (f : Feed σ) : Feed σ :=
  let settled := f.settle
  { settled with now := f.now + 1 }

/-- Whether nothing is due up to an instant. -/
def isQuiet (f : Feed σ) (last : Nat) : Bool := f.subscriptions.all fun s => !s.isDue last

/-- Lets milliseconds pass. What is due at the instant that is reached has not happened yet. -/
def advance : Nat → Feed σ → Feed σ
  | 0, f => f
  | n + 1, f =>
    if f.isQuiet (f.now + n) then { f with now := f.now + (n + 1) }
    else advance n f.nextInstant

/-! ## Subscribing -/

/-- Whether a subscription is going on. -/
def isLive (f : Feed σ) (id : Nat) : Bool := f.subscriptions.any fun s => s.id == id

/-- Begins to look after a flow, and answers with the id of the subscription. -/
def subscribe (f : Feed σ) (flowName : String) (period : Nat) : Nat × Feed σ :=
  let s : Subscription := ⟨f.nextId, flowName, period, .waiting f.now⟩
  (f.nextId, { f with nextId := f.nextId + 1, subscriptions := f.subscriptions ++ [s] })

/-- Ends subscriptions at once. -/
def cancel (f : Feed σ) (ids : List Nat) : Feed σ :=
  { f with subscriptions := f.subscriptions.filter fun s => !ids.contains s.id }

/-- Ends subscriptions and waits until they have ended, which lets the others act that are due. -/
def unsubscribe (f : Feed σ) (ids : List Nat) : Feed σ :=
  if ids.any f.isLive then (f.cancel ids).settle else f

end Feed

end Flowline
