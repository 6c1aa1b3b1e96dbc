import Flowline.Monitor.Registry
import Flowline.Render.Tree

/-!
# Flow tables

The listing of flows: a header and one line per flow, names to the left, counts to the right. The
column of the names is as wide as the longest name has bytes.
-/

namespace Flowline.Render

/-- The text with blanks behind it up to a number of characters. -/
def padRight (width : Nat) (s : String) : String :=
  s ++ String.ofList (List.replicate (width - s.length) ' ')

/-- The text with blanks before it up to a number of characters. -/
def padLeft (width : Nat) (s : String) : String :=
  String.ofList (List.replicate (width - s.length) ' ') ++ s

/-- The width of the column of the names. -/
def nameWidth (flows : List FlowSummary) : Nat :=
  flows.foldl (fun width f => max width f.name.utf8ByteSize) "NAME".utf8ByteSize

def tableHeader (width : Nat) : String := padRight width "NAME" ++ "  STAGES  CATEGORIES  EDGES"

def tableLine (width : Nat) (f : FlowSummary) : String :=
  padRight width f.name ++ "  " ++ padLeft 6 f.stageCount.repr ++ "  " ++
    padLeft 10 f.categoryCount.repr ++ "  " ++ padLeft 5 f.edgeCount.repr

/-- The listing of the flows. -/
def flowTable (flows : List FlowSummary) : String :=
  let width := nameWidth flows
  Text.unlines (tableHeader width :: flows.map (tableLine width))

end Flowline.Render
