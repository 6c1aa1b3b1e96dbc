import Flowline.Settings
import Flowline.Source.Basic

/-!
# The databases of the execution systems

Sub-stages with a DAG as target are looked up in the table of DAG runs, all in one query; those
with ids on premises in the table of stage statuses, one query each. `Answers` are what comes back,
and a `Server` is whatever gives them. A part whose queries all fail marks its sub-stages; the fetch
as a whole fails only if every part that was asked failed.

* `checkTable` accepts a table name or a schema and a table name, so that nothing else can get
  into the text of a query.
-/

namespace Flowline.Database

open Text Time

/-! ## Tables and queries -/

/-- Why a source cannot be made. -/
inductive Refusal where
  | noUrl
  | invalidTable (name : String)
  | noConnection
deriving DecidableEq

def Refusal.message : Refusal → String
  | noUrl => "database source selected but database.url is not set"
  | invalidTable name => "invalid table name '" ++ name ++ "'"
  | noConnection => "the database cannot be reached"

/-- A character that a table name may have. -/
def isNameChar (c : Char) : Bool := c.isAlphanum || c == '_'

/-- A name that is not blank, has only letters, digits and underscores of ASCII, and begins with
no digit. -/
def isName (s : List Char) : Bool :=
  !s.isEmpty && s.all isNameChar && !s.head?.any Char.isDigit

/-- A table name, or a schema and a table name with a point between them. -/
def isTable (name : String) : Bool :=
  let parts := name.toList.splitOn '.'
  parts.length ≤ 2 && parts.all isName

def checkTable (name : String) : Except Refusal PUnit :=
  if isTable name then .ok () else .error (.invalidTable name)

/-- The query for the latest runs of some DAGs. -/
def dagRunQuery (table : String) : String :=
  "SELECT DISTINCT ON (dag_id) dag_id, state, start_date, end_date FROM " ++ table ++
    " WHERE dag_id = ANY($1) ORDER BY dag_id, execution_date DESC"

/-- The query for the latest row of a process. -/
def stageStatusQuery (table : String) : String :=
  "SELECT status, start_date, end_date FROM " ++ table ++
    " WHERE bpf_id = $1 AND process_id = $2 ORDER BY start_date DESC NULLS LAST LIMIT 1"

/-- The tables to look into. -/
structure Tables where
  dagRuns : String
  stageStatuses : String
deriving DecidableEq

/-- The tables, if both can be used. -/
def Tables.checked (dagRuns stageStatuses : String) : Except Refusal Tables := do
  checkTable dagRuns
  checkTable stageStatuses
  return ⟨dagRuns, stageStatuses⟩

/-- The tables of the settings, which must also say where the databases are. -/
def Tables.ofSettings (s : DatabaseSettings) : Except Refusal Tables :=
  match s.url with
  | none => .error .noUrl
  | some _ => Tables.checked s.dagRunTable s.stageStatusTable

/-! ## Rows -/

/-- The latest run of a DAG. -/
structure DagRun where
  dagId : String
  state : Option String
  start : Option Instant
  finish : Option Instant
deriving DecidableEq

/-- The latest row of a process on premises. -/
structure StageRun where
  status : Option String
  start : Option Instant
  finish : Option Instant
deriving DecidableEq

/-- The word for a status that a row leaves open. -/
def unknownState : String := "unknown"

/-- The patch that writes a whole record. -/
def rowPatch (state : String) (start finish : Option Instant) (details : List (String × Json)) :
    Patch where
  status := some (Status.normalize state)
  startTime := .to start
  endTime := .to finish
  details := some (NameMap.ofList details)

/-- What identifies a DAG. -/
def dagDetails (dagId : String) : List (String × Json) := [("dag_id", .text dagId)]

/-- What identifies a process on premises. -/
def processDetails (ids : OnPremIds) : List (String × Json) :=
  [("bpf_id", .int ids.bpfId), ("process_id", .int ids.processId)]

def DagRun.patch (r : DagRun) : Patch :=
  let state := r.state.getD unknownState
  rowPatch state r.start r.finish (dagDetails r.dagId ++ [("state", .text state)])

def StageRun.patch (ids : OnPremIds) (r : StageRun) : Patch :=
  let status := r.status.getD unknownState
  rowPatch status r.start r.finish (processDetails ids ++ [("original_status", .text status)])

/-- The patch for a sub-stage whose query found no row. -/
def missingPatch (details : List (String × Json)) : Patch :=
  { Patch.ofStatus .unknown with details := some (NameMap.ofList details) }

/-- The patch for a sub-stage whose query failed. -/
def errorPatch (message : String) : Patch :=
  { Patch.ofStatus .error with details := some (NameMap.ofList [("error", .text message)]) }

/-! ## Fetching -/

/-- The sub-stages of a flow by what they run on. -/
structure Targets where
  /-- The names of the sub-stages of each DAG. -/
  dags : NameMap (List String)
  /-- The sub-stages on premises, in order. -/
  processes : List (String × OnPremIds)

/-- Files a sub-stage under its target. -/
def Targets.add (t : Targets) (s : SubStage) : Targets :=
  match s.target with
  | some (.dag id) => { t with dags := t.dags.alter id fun old => old.getD [] ++ [s.name] }
  | some (.onPrem ids) => { t with processes := t.processes ++ [(s.name, ids)] }
  | none => t

/-- The targets of a graph. -/
def Targets.ofGraph (g : Graph) : Targets := g.subStages.foldl Targets.add ⟨NameMap.empty, []⟩

/-- What the queries of one fetch are answered with, failures by their messages. -/
structure Answers where
  dagRuns : Except String (List DagRun)
  /-- The answer to the query for the process at a place. -/
  stageRun : Nat → Except String (Option StageRun)

/-- What one part gives: its patches, and the first failure if all of its queries failed. -/
structure Part where
  patches : List (String × Patch)
  fault : Option String

/-- The patch for the sub-stages of a DAG. -/
def dagPatch (runs : List DagRun) (id : String) : Patch :=
  match runs.find? fun run => run.dagId == id with
  | some run => run.patch
  | none => missingPatch (dagDetails id)

/-- The part of the DAGs. -/
def dagPart (answer : Except String (List DagRun)) (dags : NameMap (List String)) : Part :=
  let patchesBy (patch : String → Patch) :=
    dags.entries.flatMap fun (id, names) => names.map fun name => (name, patch id)
  match answer with
  | .ok runs => ⟨patchesBy (dagPatch runs), none⟩
  | .error message => ⟨patchesBy fun _ => errorPatch message, some message⟩

/-- The patch for a sub-stage on premises. -/
def processPatch (ids : OnPremIds) : Except String (Option StageRun) → Patch
  | .ok (some run) => run.patch ids
  | .ok none => missingPatch (processDetails ids)
  | .error message => errorPatch message

/-- The message of a failure. -/
def fault? {α : Type} : Except String α → Option String
  | .ok _ => none
  | .error message => some message

/-- The part on premises. -/
def processPart (answers : List ((String × OnPremIds) × Except String (Option StageRun))) :
    Part where
  patches := answers.map fun (process, answer) => (process.1, processPatch process.2 answer)
  fault :=
    if answers.all fun entry => (fault? entry.2).isSome then
      answers.findSome? fun entry => fault? entry.2
    else none

/-- The parts of a flow that have sub-stages. -/
def Answers.parts (a : Answers) (t : Targets) : List Part :=
  (if t.dags.isEmpty then [] else [dagPart a.dagRuns t.dags]) ++
  (if t.processes.isEmpty then []
    else [processPart (t.processes.zipIdx.map fun (process, i) => (process, a.stageRun i))])

/-- The statuses of all sub-stages that have a target. -/
def Answers.result (a : Answers) (now : Instant) (s : Snapshot) : Except FeedError Event :=
  let parts := a.parts (Targets.ofGraph s.graph)
  match parts.filterMap Part.fault with
  | fault :: faults =>
    if (fault :: faults).length = parts.length then .error (.database fault)
    else .ok ⟨s.name, now, NameMap.ofList (parts.flatMap Part.patches)⟩
  | [] => .ok ⟨s.name, now, NameMap.ofList (parts.flatMap Part.patches)⟩

/-! ## Servers -/

/-- What a query failed with. -/
structure QueryFault where
  text : String
deriving DecidableEq

def QueryFault.message (f : QueryFault) : String := "error returned from database: " ++ f.text

/-- What answers queries, given as the text of the query and its parameters. -/
structure Server where
  dagRuns : String → List String → Except QueryFault (List DagRun)
  stageRun : String → OnPremIds → Except QueryFault (Option StageRun)

/-- What a server answers to the queries for some targets. -/
def Server.answers (server : Server) (tables : Tables) (t : Targets) : Answers where
  dagRuns :=
    (server.dagRuns (dagRunQuery tables.dagRuns) t.dags.names).mapError QueryFault.message
  stageRun i :=
    match t.processes[i]? with
    | some process => (server.stageRun (stageStatusQuery tables.stageStatuses) process.2).mapError
        QueryFault.message
    | none => .ok none

def fetch (server : Server) (tables : Tables) (now : Instant) (s : Snapshot) :
    Except FeedError Event :=
  (server.answers tables (Targets.ofGraph s.graph)).result now s

/-- The databases as a source, which has nothing to remember. -/
def source (server : Server) (tables : Tables) (now : Instant) : Source PUnit where
  name := "database"
  pollInterval := none
  fetch _ s := (Fetch.immediate (fetch server tables now s), ())

end Flowline.Database
