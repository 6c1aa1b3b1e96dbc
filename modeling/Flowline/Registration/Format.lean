import Flowline.FlowName
import Flowline.Graph.Format
import Flowline.Json.Text
import Flowline.Registration

/-!
# Registrations as JSON

How registrations are written as JSON and read from it. `Registration.ofGlyphs` also checks what
the form of the text cannot: the name of the flow, and that the refresh interval is not zero.
-/

namespace Flowline

open Json

namespace Json

/-- A table in its own order. -/
def ofTable {α : Type} (f : α → Json) (t : Table String α) : Json :=
  .object (t.entries.map fun e => (e.1, f e.2))

end Json

/-! ## Writing -/

def FlowDefinition.toJson : FlowDefinition → Json
  | text s => .text s
  | structured overall subStages =>
    .object [("overall", .text overall), ("subStages", .ofTable (Json.ofTable Json.text) subStages)]

def MappingSource.toJson {α : Type} (f : α → Json) : MappingSource α → Json
  | text s => .text s
  | table t => .ofTable f t

def MappingSources.toJson (m : MappingSources) : Json :=
  .object [("aws", m.aws.toJson Json.text), ("onPrem", m.onPrem.toJson OnPremIds.toJson)]

def Registration.toJson (r : Registration) : Json :=
  .object
    ([("flowName", .text r.flowName)] ++
      Json.memberIfSome "refreshInterval" Json.nat r.refreshInterval ++
      [("databases", .object r.databases.entries),
       ("flowDefinition", r.definition.toJson),
       ("stageMappings", r.mappings.toJson)])

/-! ## Reading -/

def FlowDefinition.reader : Reader FlowDefinition :=
  Reader.forms "FlowDefinition"
    [Reader.text.map .text,
     (Reader.objectRecord "struct variant FlowDefinition::Structured"
      (.cons (.withDefault "overall" Reader.text "")
      (.cons (.withDefault "subStages" Reader.text.table.table Table.empty) .nil))).map
      fun (overall, subStages, ()) => .structured overall subStages]

def MappingSource.reader {α : Type} (r : Reader α) : Reader (MappingSource α) :=
  Reader.forms "MappingSource" [Reader.text.map .text, r.table.map .table]

def MappingSources.reader : Reader MappingSources :=
  (Reader.record "struct StageMappings"
    (.cons (.withDefault "aws" (MappingSource.reader Reader.text) (.table Table.empty))
    (.cons (.withDefault "onPrem" (MappingSource.reader OnPremIds.reader) (.table Table.empty))
    .nil))).map
    fun (aws, onPrem, ()) => ⟨aws, onPrem⟩

def Registration.reader : Reader Registration :=
  (Reader.record "struct FlowConfig"
    (.cons (.withDefault "flowName" Reader.text "")
    (.cons (.withDefault "refreshInterval" Reader.u64.optional none)
    (.cons (.withDefault "databases" Reader.any.table Table.empty)
    (.cons (.withDefault "flowDefinition" FlowDefinition.reader FlowDefinition.empty)
    (.cons (.withDefault "stageMappings" MappingSources.reader default) .nil)))))).map
    fun (flowName, refreshInterval, databases, definition, mappings, ()) =>
      ⟨flowName, refreshInterval, databases, definition, mappings⟩

namespace Registration

/-- Refuses a registration whose name or interval cannot be used. -/
def check (r : Registration) : Except Error PUnit := do
  FlowName.check r.flowName
  if r.refreshInterval = some 0 then throw (.zeroRefreshInterval r.flowName)

/-- The registration that a text spells. -/
def ofGlyphs (s : List Text.Glyph) : Except Error Registration :=
  match Registration.reader.run s with
  | .error fault => .error (.json fault)
  | .ok r => do
    r.check
    return r

/-- The text that a registration is stored as. -/
def storedText (r : Registration) : String := r.toJson.pretty

/-- The name of the file that a registration is stored in. -/
def fileName (r : Registration) : String := FlowName.fileName r.flowName

end Registration

end Flowline
