import Flowline.Text.Arrow

/-!
# Sub-stage expressions

An expression says which sub-stages a stage has and how they relate: `A->B` runs them one after
the other, `A,B` side by side, and a text with neither separator is a single sub-stage. An arrow
takes precedence over a comma, which then belongs to a name.
-/

namespace Flowline

open Text

/-- How the sub-stages of a stage relate. -/
inductive SubStageKind where
  | sequential
  | parallel
  | single
deriving DecidableEq, Inhabited

namespace SubStageKind

def all : List SubStageKind := [sequential, parallel, single]

/-- The lower-case name of the kind. -/
def name : SubStageKind → String
  | sequential => "sequential"
  | parallel => "parallel"
  | single => "single"

/-- The kind of an expression, decided by the separators in it. -/
def ofExpr (s : List Char) : SubStageKind :=
  if hasArrow s then sequential else if s.contains ',' then parallel else single

/-- The pieces of an expression of this kind. -/
def pieces (kind : SubStageKind) (s : List Char) : List (List Char) :=
  match kind with
  | sequential => splitArrow s
  | parallel => s.splitOn ','
  | single => [s]

end SubStageKind

/-- The kind of an expression and the names of its sub-stages, in order. -/
def deriveSubStages (expr : String) : SubStageKind × List String :=
  let kind := SubStageKind.ofExpr expr.toList
  (kind, namesOf (kind.pieces expr.toList))

end Flowline
