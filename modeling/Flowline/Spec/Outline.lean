import Flowline.Spec
import Flowline.Text.Arrow

/-!
# The outline in the overall line

The overall line may name stages in groups such as `AWS{A->B}`: a name, blanks, and a chain in
braces. `groups` finds the groups from left to right; `outline` keeps those whose name is the
token of a category. Text between groups, and braces that belong to no group, are passed over.
-/

namespace Flowline.Spec

open Text

/-- A character that a group's name is made of. -/
def isGroupNameChar (c : Char) : Bool := c.isAlphanum || c == '_' || c == '-'

/-- A text in braces, without braces inside, at the start: what it holds and what follows it. -/
def braced? : List Char → Option (List Char × List Char)
  | [] => none
  | c :: s =>
    if c = '\x7b' then
      match s.dropWhile fun c => c ≠ '\x7b' ∧ c ≠ '\x7d' with
      | [] => none
      | d :: rest =>
        if d = '\x7d' then some (s.takeWhile fun c => c ≠ '\x7b' ∧ c ≠ '\x7d', rest) else none
    else none

theorem length_rest_of_braced? {s content rest : List Char}
    (h : braced? s = some (content, rest)) : rest.length < s.length := by
  cases s with
  | nil => simp [braced?] at h
  | cons c s =>
    simp only [braced?] at h
    split at h
    · split at h
      · cases h
      · next d _ hd =>
        split at h
        · cases h
          have hrest : (d :: rest).length ≤ s.length := by
            rw [← hd]
            exact (List.dropWhile_sublist _).length_le
          simp only [List.length_cons] at hrest ⊢
          omega
        · cases h
    · cases h

/-- The groups from left to right, each as its name and the text in its braces. A name is as long
as it can be, so what follows a name that begins no group is looked at from the name's end. -/
def groups (s : List Char) : List (List Char × List Char) :=
  match s with
  | [] => []
  | c :: tail =>
    if isGroupNameChar c then
      match _h : braced? (trimLeft (tail.dropWhile isGroupNameChar)) with
      | some (content, rest) => (c :: tail.takeWhile isGroupNameChar, content) :: groups rest
      | none => groups (tail.dropWhile isGroupNameChar)
    else groups tail
termination_by s.length
decreasing_by
  all_goals simp_wf
  · have h₁ := length_rest_of_braced? _h
    have h₂ := (List.dropWhile_sublist isBlank (l := tail.dropWhile isGroupNameChar)).length_le
    have h₃ := (List.dropWhile_sublist isGroupNameChar (l := tail)).length_le
    simp only [trimLeft] at h₁
    omega
  · have h := (List.dropWhile_sublist isGroupNameChar (l := tail)).length_le
    omega

/-- A group of the overall line whose name is a category. -/
structure OutlineGroup where
  category : Category
  stages : List String
deriving DecidableEq

/-- The stages that the overall line names, group by group. -/
def outline (spec : Spec) : List OutlineGroup :=
  (groups spec.overall.toList).filterMap fun (name, content) =>
    (Category.ofToken? (String.ofList name)).map fun c => ⟨c, chain content⟩

end Flowline.Spec
