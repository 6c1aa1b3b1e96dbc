import Flowline.Definition.Scan
import Flowline.Graph.Build
import Flowline.Json.Value

/-!
# Registrations

A `Registration` is what a user hands in for one flow: its name, how often to look after it, the
databases of the execution systems, the definition, and the mappings. The definition and the
mappings may each be a text or a structure; `definition.toSpec` and `mappings.toMapping` reduce
both to the same types.
-/

namespace Flowline

open Text

/-- A flow definition as it is handed in. -/
inductive FlowDefinition where
  | text (s : String)
  /-- Expressions by stage name by category name, not yet trimmed. -/
  | structured (overall : String) (subStages : Table String (Table String String))
deriving DecidableEq

namespace FlowDefinition

/-- The definition that says nothing. -/
def empty : FlowDefinition := structured "" Table.empty

instance : Inhabited FlowDefinition := ⟨empty⟩

/-- Writes one stage; a stage without a name is left out. -/
def addStage (c : Category) (spec : Spec) (entry : String × String) : Spec :=
  if trimmed entry.1 = "" then spec else spec.insertStage c (trimmed entry.1) (trimmed entry.2)

/-- Writes the stages of one category; a name that is no category is left out. -/
def addCategory (spec : Spec) (entry : String × Table String String) : Spec :=
  match Category.ofToken? (trimmed entry.1) with
  | none => spec
  | some c => entry.2.entries.foldl (addStage c) (spec.enter c)

/-- What the definition means. -/
def toSpec : FlowDefinition → Spec
  | text s => Definition.parse s
  | structured overall subStages =>
    subStages.entries.foldl addCategory (Spec.ofOverall (trimmed overall))

end FlowDefinition

/-- A mapping table as it is handed in. -/
inductive MappingSource (α : Type) where
  | text (s : String)
  | table (t : Table String α)
deriving DecidableEq

namespace MappingSource

variable {α : Type}

instance : Inhabited (MappingSource α) := ⟨table Table.empty⟩

/-- The table, with `parse` for a text. -/
def toTable (parse : String → Table String α) : MappingSource α → Table String α
  | text s => parse s
  | table t => t

end MappingSource

/-- The mappings as they are handed in. -/
structure MappingSources where
  aws : MappingSource String
  onPrem : MappingSource OnPremIds
deriving DecidableEq, Inhabited

/-- What the mappings mean. -/
def MappingSources.toMapping (m : MappingSources) : Mapping :=
  ⟨m.aws.toTable Mapping.parseAws, m.onPrem.toTable Mapping.parseOnPrem⟩

/-- What is handed in for one flow. -/
structure Registration where
  flowName : String
  /-- Seconds between two looks at the status. -/
  refreshInterval : Option Nat
  /-- Connection details of the execution systems, not looked into. -/
  databases : Table String Json
  definition : FlowDefinition
  mappings : MappingSources
deriving DecidableEq, Inhabited

namespace Registration

/-- What the definition means. -/
def spec (r : Registration) : Spec := r.definition.toSpec

/-- What the mappings mean. -/
def mapping (r : Registration) : Mapping := r.mappings.toMapping

/-- The graph of the flow. -/
def graph (r : Registration) : Graph := Graph.build r.mapping r.spec

/-- The refresh interval, or the default of the settings. -/
def refreshSeconds (r : Registration) (default : Nat) : Nat := r.refreshInterval.getD default

end Registration

end Flowline
