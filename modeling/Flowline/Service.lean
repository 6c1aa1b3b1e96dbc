import Flowline.Deployment
import Flowline.Feed.Subscriptions

/-!
# The service

The service keeps the statuses of all stored flows fresh: starting it registers every flow that
can be read and subscribes to it, stopping it ends the subscriptions.
-/

namespace Flowline

/-- A deployment at work. -/
structure Service (σ : Type) where
  deployment : Deployment
  subscriptions : Subscriptions σ

namespace Service

variable {σ : Type}

/-- A service that has not started. -/
def ofDeployment (d : Deployment) (source : Source σ) (memory : σ) : Service σ :=
  ⟨d, Subscriptions.start (Feed.start Monitor.empty source memory)⟩

def monitor (s : Service σ) : Monitor := s.subscriptions.feed.monitor

/-- The service with another monitor. -/
def setMonitor (s : Service σ) (m : Monitor) : Service σ :=
  { s with subscriptions :=
      { s.subscriptions with feed := { s.subscriptions.feed with monitor := m } } }

/-- Milliseconds between two looks at a flow. -/
def period (s : Service σ) (r : Registration) : Nat :=
  s.subscriptions.feed.source.period (r.refreshSeconds s.deployment.settings.defaultRefreshInterval)

/-- Registers a flow and subscribes to it. -/
def startFlow (s : Service σ) (r : Registration) : Service σ :=
  let s := s.setMonitor (s.monitor.register r).2
  { s with subscriptions := (s.subscriptions.subscribe r.flowName (s.period r)).2 }

/-- Starts every stored flow, and answers with their number. -/
def start (s : Service σ) (fs : Files) : Except Error Nat × Service σ :=
  match s.deployment.store.loadAll fs with
  | .error e => (.error e, s)
  | .ok flows => (.ok flows.length, flows.foldl startFlow s)

/-- Ends all subscriptions. -/
def shutdown (s : Service σ) : Service σ :=
  { s with subscriptions := s.subscriptions.unsubscribeAll }

/-- The names of the flows that are looked after, in order. -/
def activeFlows (s : Service σ) : List String := s.subscriptions.flows

/-- Lets milliseconds pass. -/
def advance (s : Service σ) (n : Nat) : Service σ :=
  { s with subscriptions := s.subscriptions.advance n }

end Service

end Flowline
