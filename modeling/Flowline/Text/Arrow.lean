import Flowline.Text.Blank

/-!
# Chains written with arrows

A chain is written by putting `->` between its links. `splitArrow` gives the pieces between the
arrows, leftmost first and without overlap; `chain` gives the links, which are the pieces that
are not blank, trimmed.
-/

namespace Flowline.Text

/-- The pieces between the arrows: always one more than there are arrows. -/
def splitArrow : List Char → List (List Char)
  | '-' :: '>' :: s => [] :: splitArrow s
  | c :: s => (splitArrow s).modifyHead (c :: ·)
  | [] => [[]]

/-- Whether an arrow occurs. -/
def hasArrow : List Char → Bool
  | '-' :: '>' :: _ => true
  | _ :: s => hasArrow s
  | [] => false

/-- The pieces that are not blank, trimmed. -/
def namesOf (pieces : List (List Char)) : List String :=
  ((pieces.map trim).filter (· ≠ [])).map String.ofList

/-- The links of a chain. -/
def chain (s : List Char) : List String := namesOf (splitArrow s)

end Flowline.Text
