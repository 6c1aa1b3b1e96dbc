import Flowline.Command.Failure
import Flowline.Deployment

/-!
# Making a deployment

A new deployment has a settings file with the usual values, and one example flow. A directory
that has a settings file already is refused.
-/

namespace Flowline.Command

open Text

/-- The file of the example flow in a deployment. -/
def exampleFile : String := "configs/DERIV.json"

/-- The example flow. -/
def exampleFlow : String :=
  "\x7b
  \"flowName\": \"DERIV\",
  \"refreshInterval\": 120,
  \"databases\": \x7b
    \"aws\": \x7b \"host\": \"airflow-db.internal\", \"port\": 5432, \"database\": \"airflow\" \x7d,
    \"onPrem\": \x7b \"host\": \"batch-db.internal\", \"port\": 5432, \"database\": \"batch\" \x7d
  \x7d,
  \"flowDefinition\": \"Overall flow\\n"
  ++ "AWS\x7bCalculator_Runs->Cashflow_Generator\x7d ->On-PREM\x7bBPF\x7d\\n\\n"
  ++ "Sub-stages\\nAWS\\n\x7b\\n"
  ++ "Calculator_Runs \x7b Stage_1_1 -> Stage1_2 -> Stage1_3 \x7d\\n"
  ++ "Cashflow_Generator \x7b Stage_2 \x7d\\n\x7d\\n"
  ++ "On-PREM\\n\x7b\\nBPF \x7b Stage5_1, Stage5_2 \x7d\\n\x7d\\n\",
  \"stageMappings\": \x7b
    \"aws\": \"Stage_1_1: calculator_stage_1_dag\\nStage1_2: calculator_stage_2_dag\\n"
  ++ "Stage1_3: calculator_stage_3_dag\\nStage_2: cashflow_generator_dag\",
    \"onPrem\": \"Stage5_1: 20010, 10\\nStage5_2: 20007, 5\"
  \x7d
\x7d
"

/-- The settings of a new deployment. -/
def newSettings (name : String) : String :=
  unlines [
    "# Flowtrack settings",
    "name: " ++ name,
    "",
    "# Directory of flow registration payloads (<flow>.json)",
    "config_dir: configs",
    "",
    "# Status source: mock | database",
    "source: mock",
    "",
    "mock:",
    "  interval_secs: 5",
    "",
    "database:",
    "  # url: postgres://flowtrack@localhost:5432/airflow",
    "  dag_run_table: dag_run",
    "  stage_status_table: stage_status",
    "",
    "# Seconds between refreshes for flows without refreshInterval",
    "default_refresh_interval: 120"]

/-- A step that changes files: it fails with a message, and may have changed some before that. -/
abbrev FileStep (α : Type) := ExceptT Failure (StateM Files) α

/-- What the file system refuses, in its own words. -/
def refuse {α : Type} (fault : FileFault) : FileStep α := throw (.ofMessage fault.message)

/-- Makes a directory and those around it. -/
def makeDirectories (path : String) : FileStep PUnit := do
  match (← get).makeDirectories path with
  | (.error fault, fs) => set fs; refuse fault
  | (.ok (), fs) => set fs

/-- Writes a file. -/
def writeText (path text : String) : FileStep PUnit := do
  match (← get).write path (Glyph.ofString text) with
  | .error fault => refuse fault
  | .ok fs => set fs

/-- The name of the directory at a path, wherever it leads. -/
def directoryName? (path : String) : FileStep (Option String) := do
  let fs ← get
  match fs.lookUp path, fs.locate path with
  | .ok _, .ok place => return place.getLast?
  | .error fault, _ | _, .error fault => refuse fault

/-- The name of a new deployment: the given one, or that of its directory. -/
def deploymentName (path : String) (name : Option String) : FileStep String := do
  match name, ← directoryName? path with
  | some name, _ => return name
  | none, some name => return name
  | none, none => throw (.ofMessage "Could not determine deployment name from path")

/-- Makes a directory unless something is there. -/
def ensureDirectory (path : String) : FileStep PUnit := do
  if !(← get).pathExists path then makeDirectories path

/-- Refuses a directory that has a settings file. -/
def refuseSettings (path : String) : FileStep PUnit := do
  if (← get).pathExists (Path.join path Deployment.settingsFile) then
    throw (.ofMessage
      ("Directory '" ++ path ++ "' already contains a " ++ Deployment.settingsFile))

/-- Makes the directories of a new deployment, where they are missing, and answers with its
name. -/
def prepareDirectories (path : String) (name : Option String) : FileStep String := do
  ensureDirectory path
  let name ← deploymentName path name
  refuseSettings path
  makeDirectories (Path.join path "configs")
  return name

/-- Makes a deployment in a directory. -/
def makeDeployment (path : String) (name : Option String) : FileStep PUnit := do
  let name ← prepareDirectories path name
  writeText (Path.join path Deployment.settingsFile) (newSettings name)
  writeText (Path.join path exampleFile) exampleFlow

end Flowline.Command
