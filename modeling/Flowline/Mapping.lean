import Flowline.Category
import Flowline.Table
import Flowline.Text.Integer

/-!
# Stage mappings

A mapping says where a stage or sub-stage runs: in the cloud as a DAG, on the premises as a
process of a batch flow. A mapping text has one `name: value` entry per line. A malformed line
says nothing; of two lines for one name the later gives the value, the earlier the place.

* `entryOf?`: the entry that one line holds.
* `Mapping.targetFor`: the sub-stage's own entry, else that of its stage.
-/

namespace Flowline

open Text

/-- A process on the premises: the batch flow and the process within it. -/
structure OnPremIds where
  bpfId : Int
  processId : Int
deriving DecidableEq, Inhabited

/-- Where a unit of work runs. -/
inductive Target where
  | dag (dagId : String)
  | onPrem (ids : OnPremIds)
deriving DecidableEq

/-- The mapping tables of both environments, keyed by stage or sub-stage name. -/
structure Mapping where
  aws : Table String String
  onPrem : Table String OnPremIds
deriving DecidableEq, Inhabited

namespace Mapping

/-- The mapping without entries. -/
def empty : Mapping := ⟨Table.empty, Table.empty⟩

def isEmpty (m : Mapping) : Bool := m.aws.isEmpty && m.onPrem.isEmpty

/-- Where a sub-stage runs, by its own name or else by the name of its stage. -/
def targetFor (m : Mapping) (c : Category) (stage subStage : String) : Option Target :=
  match c with
  | .aws => ((m.aws.get? subStage).or (m.aws.get? stage)).map .dag
  | .onPrem => ((m.onPrem.get? subStage).or (m.onPrem.get? stage)).map .onPrem

/-! ## Mapping texts -/

/-- The name and the value of a line: the parts around its first colon, trimmed, neither empty. -/
def entryOf? (line : List Char) : Option (String × List Char) :=
  match cutAt ':' (trim line) with
  | none => none
  | some (name, value) =>
    if trim name = [] ∨ trim value = [] then none
    else some (String.ofList (trim name), trim value)

/-- Two integers with a comma between them. -/
def idPair? (value : List Char) : Option OnPremIds :=
  match (value.splitOn ',').map trim with
  | [bpf, process] => do
    let bpfId ← int64? bpf
    let processId ← int64? process
    some ⟨bpfId, processId⟩
  | _ => none

/-- The entry of a line of the cloud table. -/
def awsEntry? (line : List Char) : Option (String × String) :=
  (entryOf? line).map fun (name, value) => (name, String.ofList value)

/-- The entry of a line of the table for the premises. -/
def onPremEntry? (line : List Char) : Option (String × OnPremIds) := do
  let (name, value) ← entryOf? line
  let ids ← idPair? value
  some (name, ids)

/-- The cloud table that a text spells. -/
def parseAws (text : String) : Table String String :=
  Table.ofList ((lines text.toList).filterMap awsEntry?)

/-- The table for the premises that a text spells. -/
def parseOnPrem (text : String) : Table String OnPremIds :=
  Table.ofList ((lines text.toList).filterMap onPremEntry?)

/-- The mapping that two texts spell. -/
def parse (aws onPrem : String) : Mapping := ⟨parseAws aws, parseOnPrem onPrem⟩

end Mapping

end Flowline
