import Flowline.Graph.Format
import Flowline.Spec.Outline

/-!
# Specifications and mappings as JSON

How specifications and mapping tables are read from JSON.
-/

namespace Flowline

open Json

/-- The category whose token is the key. -/
def Category.ofKey (key : String) : Except Fault Category := variantNamed Category.variants key

def Spec.reader : Reader Spec :=
  (Reader.record "struct ParsedFlowSpec"
    (.cons (.required "overall" Reader.text)
    (.cons (.required "subStages" (Reader.members Category.ofKey Reader.text.table)) .nil))).map
    fun (overall, subStages, ()) => ⟨overall, Table.ofList subStages⟩

def Mapping.reader : Reader Mapping :=
  (Reader.record "struct MappingTable"
    (.cons (.withDefault "aws" Reader.text.table Table.empty)
    (.cons (.withDefault "onPrem" OnPremIds.reader.table Table.empty) .nil))).map
    fun (aws, onPrem, ()) => ⟨aws, onPrem⟩

end Flowline
