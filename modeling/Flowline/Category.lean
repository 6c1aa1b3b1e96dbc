/-!
# Categories

A category is an execution environment that stages run in. There are two, each written as one
fixed token; a text that is not exactly one of the tokens names no category.
-/

namespace Flowline

/-- An execution environment: the cloud, or the machines on the premises. -/
inductive Category where
  | aws
  | onPrem
deriving DecidableEq, Repr, Inhabited

namespace Category

/-- Every category, in the order in which they are declared. -/
def all : List Category := [aws, onPrem]

/-- The text that stands for the category in definitions and in node ids. -/
def token : Category → String
  | aws => "AWS"
  | onPrem => "On-PREM"

/-- The category that the text is the token of. -/
def ofToken? (s : String) : Option Category := all.find? fun c => c.token == s

theorem ofToken?_eq_some_iff {s : String} {c : Category} : ofToken? s = some c ↔ s = c.token := by
  constructor
  · intro h
    unfold ofToken? at h
    have found := List.find?_some h
    exact (beq_iff_eq.1 found).symm
  · rintro rfl
    cases c <;> decide

theorem ofToken?_eq_none_iff {s : String} :
    ofToken? s = none ↔ ¬ (s = "AWS" ∨ s = "On-PREM") := by
  rw [Option.eq_none_iff_forall_ne_some]
  simp only [ne_eq, ofToken?_eq_some_iff]
  constructor
  · intro h hs
    rcases hs with hs | hs
    · exact h .aws hs
    · exact h .onPrem hs
  · intro h c hs
    cases c with
    | aws => exact h (.inl hs)
    | onPrem => exact h (.inr hs)

theorem token_inj {c c' : Category} (h : c.token = c'.token) : c = c' :=
  Option.some.inj ((ofToken?_eq_some_iff.2 rfl).symm.trans (ofToken?_eq_some_iff.2 h))

end Category

end Flowline
