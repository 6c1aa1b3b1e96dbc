import Flowline.Mapping

/-!
# Writing a mapping

A table is written as a text with one `name: value` line per entry, in the order of the table; the
value of an entry for the premises is its two ids in decimal. Everything is written as it is given.

* `awsText`, `onPremText`: the text of a table.
* `IsAwsTable`, `IsOnPremTable`: each name and each value fits on its line and keeps its ends.
-/

namespace Flowline.Mapping

open Text

/-- The text of some lines, with a line feed behind the last one if it is `ended`. -/
def linesText (ended : Bool) (ls : List String) : String :=
  if ended then unlines ls else "\n".intercalate ls

/-- The line of an entry. -/
def entryText (name value : String) : String := name ++ ": " ++ value

/-- The two ids, with a comma between them. -/
def idsText (ids : OnPremIds) : String :=
  integerText ids.bpfId ++ ", " ++ integerText ids.processId

/-- The text of a table whose values are written by `write`. -/
def tableText {α : Type} (write : α → String) (ended : Bool) (t : Table String α) : String :=
  linesText ended (t.entries.map fun e => entryText e.1 (write e.2))

/-- The text of a cloud table. -/
def awsText (ended : Bool) (t : Table String String) : String := tableText id ended t

/-- The text of a table for the premises. -/
def onPremText (ended : Bool) (t : Table String OnPremIds) : String := tableText idsText ended t

/-! ## What can be written -/

/-- The text is not empty, has no blank at either end, and fits on a line. -/
def IsPart (s : String) : Prop := s ≠ "" ∧ IsTrimmed s.toList ∧ '\n' ∉ s.toList

instance (s : String) : Decidable (IsPart s) := inferInstanceAs (Decidable (_ ∧ _ ∧ _))

/-- The first colon on the line of an entry is the one behind its name. -/
def IsName (s : String) : Prop := IsPart s ∧ ':' ∉ s.toList

instance (s : String) : Decidable (IsName s) := inferInstanceAs (Decidable (_ ∧ _))

/-- A cloud table whose entries can be written. A DAG id may have colons in it. -/
def IsAwsTable (t : Table String String) : Prop := ∀ e ∈ t.entries, IsName e.1 ∧ IsPart e.2

/-- A table for the premises whose entries can be written. -/
def IsOnPremTable (t : Table String OnPremIds) : Prop :=
  ∀ e ∈ t.entries, IsName e.1 ∧ IsInt64 e.2.bpfId ∧ IsInt64 e.2.processId

instance (t : Table String String) : Decidable (IsAwsTable t) :=
  inferInstanceAs (Decidable (∀ e ∈ t.entries, _))

instance (t : Table String OnPremIds) : Decidable (IsOnPremTable t) :=
  inferInstanceAs (Decidable (∀ e ∈ t.entries, _))

end Flowline.Mapping
