import Flowline.Spec.Outline

/-!
# Writing an outline

An outline is written as its groups with ` ->` between them, and a group as its name and its stages,
which stand in braces with arrows between them.
-/

namespace Flowline.Spec

/-- A group to be written, whether or not its name is a category. -/
structure WrittenGroup where
  name : String
  stages : List String
deriving DecidableEq

/-- The text of a group. -/
def WrittenGroup.text (group : WrittenGroup) : String :=
  group.name ++ "\x7b" ++ "->".intercalate group.stages ++ "\x7d"

/-- The text of an outline. -/
def outlineText (groups : List WrittenGroup) : String :=
  " ->".intercalate (groups.map WrittenGroup.text)

/-- The categories that the specification declares, each with its stages. -/
def ownGroups (spec : Spec) : List WrittenGroup :=
  spec.subStages.entries.map fun (c, stages) => ⟨c.token, stages.keys⟩

end Flowline.Spec
