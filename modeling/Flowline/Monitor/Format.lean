import Flowline.Json.Value
import Flowline.Monitor.Registry

/-!
# Listings as JSON
-/

namespace Flowline

def FlowSummary.toJson (s : FlowSummary) : Json :=
  .object
    [("name", .text s.name), ("stageCount", .nat s.stageCount),
     ("categoryCount", .nat s.categoryCount), ("nodeCount", .nat s.nodeCount),
     ("edgeCount", .nat s.edgeCount), ("version", .nat s.version)]

end Flowline
