/-!
# Handing out ids

`Ids` knows the ids that have been handed out. A base that is taken gets the suffix `-2`, or the
first of `-3`, `-4`, … that is free. Among one candidate more than there are ids in use, one is
free, so the search is bounded.
-/

namespace Flowline

/-- The ids that have been handed out. -/
structure Ids where
  used : List String
deriving DecidableEq

namespace Ids

/-- No id handed out. -/
def none : Ids := ⟨[]⟩

/-- The base with a number. -/
def numbered (base : String) (n : Nat) : String := base ++ "-" ++ n.repr

/-- The ids that are tried in turn when the base is taken. -/
def candidates (ids : Ids) (base : String) : List String :=
  (List.range' 2 (ids.used.length + 1)).map (numbered base)

/-- The id that a base gets. -/
def idFor (ids : Ids) (base : String) : String :=
  if base ∈ ids.used then ((ids.candidates base).find? fun id => id ∉ ids.used).getD base
  else base

/-- Hands out an id: the id and the ids in use after it. -/
def claim (ids : Ids) (base : String) : String × Ids :=
  (ids.idFor base, ⟨ids.idFor base :: ids.used⟩)

end Ids

end Flowline
