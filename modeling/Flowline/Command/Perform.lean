import Flowline.Command.Arguments
import Flowline.Command.Init
import Flowline.Command.Validate
import Flowline.Command.Watch
import Flowline.Json.Text
import Flowline.Render.Table
import Flowline.Service
import Flowline.Source.Selection

/-!
# Carrying out commands

`perform` carries out what a command line asks for on a tree of files. Most commands are done at
once and leave a report; to watch a flow without a limit and to run a service goes on until it is
stopped from outside.
-/

namespace Flowline.Command

open Text

/-- What a command leaves behind. -/
structure Report where
  /-- What should be looked at, though nothing failed because of it. -/
  warnings : List String
  output : String
  failure : Option Failure

namespace Report

/-- The report of a command that succeeded. -/
def ofOutput (output : String) : Report := ⟨[], output, none⟩

/-- The report of a command that failed. -/
def ofFailure (f : Failure) : Report := ⟨[], "", some f⟩

/-- The report of a command that answers with its output. -/
def ofResult : Except Failure String → Report
  | .ok output => ofOutput output
  | .error f => ofFailure f

/-- The report with warnings in front. -/
def warn (warnings : List String) (r : Report) : Report :=
  { r with warnings := warnings ++ r.warnings }

/-- A character that could steer a terminal, written so that it cannot. -/
def harmless (c : Char) : List Char :=
  if c = '\x1b' then "\\x1b".toList
  else if c = '\x07' then "\\x07".toList
  else if c = '\x08' then "\\x08".toList
  else if c = '\x0c' then "\\x0c".toList
  else if c = '\x7f' then "\\x7f".toList
  else if 0x80 ≤ c.toNat ∧ c.toNat ≤ 0x9f then
    ("\\u\x7b" ++ String.ofList (Nat.toDigits 16 c.toNat) ++ "\x7d").toList
  else [c]

/-- The line for a warning. -/
def warningLine (warning : String) : String :=
  "WARN " ++ String.ofList (warning.toList.flatMap harmless)

/-- What is said beside the output. -/
def errors (r : Report) : String :=
  "\n".intercalate (r.warnings.map warningLine ++ (r.failure.map Failure.text).toList)

/-- The number that tells success from failure. -/
def code (r : Report) : Nat := if r.failure.isSome then 1 else 0

end Report

/-! ## What the commands share -/

/-- The deployment that is meant. -/
def openDeployment (fs : Files) (config : String) : Except Failure Deployment :=
  (Deployment.loadOrDefault fs config).mapError fun e =>
    (Failure.ofError e).during ("Failed to load settings from " ++ config)

/-- A monitor with every stored flow. -/
def openMonitor (fs : Files) (d : Deployment) : Except Failure Monitor := do
  let flows ← (d.store.loadAll fs).mapError fun e =>
    (Failure.ofError e).during ("Failed to read flow configs from " ++ d.store.dir)
  return flows.foldl (fun m r => (m.register r).2) Monitor.empty

/-- The registration in a file. -/
def openRegistration (fs : Files) (file : String) : Except Failure Registration :=
  (Registration.load fs file).mapError fun e =>
    (Failure.ofError e).during "Failed to load flow payload"

/-- The source that the settings choose. -/
def openSource (d : Deployment) (now : Time.Instant) : Except Failure (Source Mock.Memory) :=
  (d.settings.chosenSource now).mapError fun refusal =>
    (Failure.ofMessage refusal.message).during "Failed to create status source"

/-- What is there, or the failure for a flow that is not. -/
def orNotFound {α : Type} (name : String) : Option α → Except Failure α
  | some a => .ok a
  | none => .error (.ofError (.flowNotFound name))

/-- A value as it is shown. -/
def jsonText (j : Json) : String := j.pretty ++ "\n"

/-! ## The commands -/

/-- The listing of the flows. -/
def list (fs : Files) (config : String) : Except Failure String := do
  let d ← openDeployment fs config
  let flows := (← openMonitor fs d).flows
  if flows.isEmpty then return "No flows registered in " ++ d.configDir ++ "\n"
  else return Render.flowTable flows

/-- The tree of a flow, or its graph as JSON. -/
def display (fs : Files) (config name : String) (json : Bool) : Except Failure String := do
  let d ← openDeployment fs config
  let v ← orNotFound name ((← openMonitor fs d).view? name)
  return if json then jsonText v.graph.toJson else Render.tree name v

/-- Registers the flow in a file. -/
def register (fs : Files) (config file : String) : Report × Files :=
  match (do return (← openDeployment fs config, ← openRegistration fs file)) with
  | .error f => (.ofFailure f, fs)
  | .ok (d, r) =>
    let warnings :=
      if r.graph.isEmpty then ["Flow '" ++ r.flowName ++ "' declares no stages"] else []
    match d.store.save fs r with
    | (.error e, fs) =>
      ((Report.ofFailure ((Failure.ofError e).during "Failed to save flow configuration")).warn
        warnings, fs)
    | (.ok _, fs) => ((Report.ofOutput "").warn warnings, fs)

/-- Removes a flow. -/
def remove (fs : Files) (config name : String) : Report × Files :=
  match openDeployment fs config with
  | .error f => (.ofFailure f, fs)
  | .ok d =>
    match d.store.delete fs name with
    | (.error e, fs) =>
      (.ofFailure ((Failure.ofError e).during "Failed to remove flow configuration"), fs)
    | (.ok true, fs) => (.ofOutput "", fs)
    | (.ok false, fs) => (.ofFailure (.ofError (.flowNotFound name)), fs)

/-- Checks the flow in a file. -/
def validate (fs : Files) (file : String) (json : Bool) : Report :=
  match openRegistration fs file with
  | .error f => .ofFailure f
  | .ok r =>
    if json then .ofOutput (jsonText r.graph.toJson)
    else (Report.ofOutput (Text.unlines (countLines r))).warn (complaints r)

/-- Asks once for the status of a flow. -/
def status (fs : Files) (now : Time.Instant) (config name : String) (json : Bool) :
    Except Failure String := do
  let d ← openDeployment fs config
  let m ← openMonitor fs d
  let s ← orNotFound name (m.snapshot? name)
  let source ← openSource d now
  let event ← (source.fetch NameMap.empty s).1.result.mapError fun e =>
    (Failure.ofMessage e.message).during ("Failed to fetch status of '" ++ name ++ "'")
  let (_, m) ← (m.apply event).mapError fun e => Failure.ofMessage e.message
  let v ← orNotFound name (m.view? name)
  return if json then jsonText v.toJson else Render.tree name v

/-- Begins to watch a flow. -/
def watch (fs : Files) (now : Time.Instant) (config name : String) : Except Failure Watch := do
  let d ← openDeployment fs config
  let m ← openMonitor fs d
  let s ← orNotFound name (m.snapshot? name)
  let source ← openSource d now
  let seconds := s.refreshInterval.getD d.settings.defaultRefreshInterval
  return Watch.start m source name (source.period seconds)

/-- Begins to keep the statuses of all flows fresh. -/
def run (fs : Files) (now : Time.Instant) (config : String) :
    Except Failure (Service Mock.Memory) := do
  let d ← openDeployment fs config
  let source ← openSource d now
  match (Service.ofDeployment d source NameMap.empty).start fs with
  | (.ok _, service) => return service
  | (.error e, _) => throw ((Failure.ofError e).during "Runtime error")

/-- Makes a deployment. -/
def init (fs : Files) (path : String) (name : Option String) : Report × Files :=
  match (makeDeployment path name).run.run fs with
  | (.ok (), fs) => (.ofOutput "", fs)
  | (.error f, fs) => (.ofFailure f, fs)

/-! ## Carrying out -/

/-- What becomes of a command. -/
inductive Outcome where
  /-- It is done. -/
  | done (report : Report) (fs : Files)
  /-- It shows updates, up to a limit if there is one. -/
  | watching (w : Watch) (limit : Option Nat)
  /-- It keeps statuses fresh. -/
  | serving (service : Service Mock.Memory)

/-- Carries out a command. -/
def perform (fs : Files) (now : Time.Instant) (i : Invocation) : Outcome :=
  match i.action with
  | .init path name => let (report, fs) := init fs path name; .done report fs
  | .validate file json => .done (validate fs file json) fs
  | .list => .done (.ofResult (list fs i.config)) fs
  | .display name json => .done (.ofResult (display fs i.config name json)) fs
  | .register file => let (report, fs) := register fs i.config file; .done report fs
  | .remove name => let (report, fs) := remove fs i.config name; .done report fs
  | .status name json => .done (.ofResult (status fs now i.config name json)) fs
  | .watch name limit =>
    match watch fs now i.config name with
    | .ok w => .watching w limit
    | .error f => .done (.ofFailure f) fs
  | .run =>
    match run fs now i.config with
    | .ok service => .serving service
    | .error f => .done (.ofFailure f) fs

end Flowline.Command
