import Flowline.Proofs.Json.Numeral
import Flowline.Json.Scan

/-!
# What numbers a text can hold

Every number that can be read in the shape of a text is the value of the parts of some number
(`isScanned_scan`). So it is an integer that 64 bits hold or a float (`isInteger64_of_isScanned`).
-/

namespace Flowline

/-- The number is what the parts of some written number stand for. -/
def Number.IsScanned (n : Number) : Prop := ∃ parts : Json.Numeral, parts.value? = some n

namespace Json

open Text

/-! ## Integers -/

theorem appendDigits_le (ds : List Char) {s : Nat} (h : s ≤ greatestNat64) :
    (appendDigits s ds).1 ≤ greatestNat64 := by
  induction ds generalizing s with
  | nil => exact h
  | cons c ds ih =>
    rw [appendDigits]
    split
    · next hnext => exact ih hnext
    · exact h

/-- An integer that is written is one that 64 bits hold. -/
theorem isInteger64_of_isScanned {n : Int} (h : (Number.integer n).IsScanned) : IsInteger64 n := by
  obtain ⟨parts, hparts⟩ := h
  have hle := appendDigits_le parts.whole (Nat.zero_le greatestNat64)
  have hfloat : ∀ e m, (Decimal.Double.ofParts? parts.negative m e).map Number.float ≠
      some (.integer n) := by
    intro e m heq
    obtain ⟨x, -, hx⟩ := Option.map_eq_some_iff.1 heq
    cases hx
  unfold greatestNat64 at hle
  unfold Numeral.value? at hparts
  generalize appendDigits 0 parts.whole = taken at hparts hle
  obtain ⟨significand, count, left⟩ := taken
  dsimp only at hparts hle
  split at hparts
  · split at hparts
    · exact absurd hparts (hfloat _ _)
    · split at hparts
      · cases hparts
        exact ⟨by omega, by omega⟩
      · split at hparts
        · next hbound =>
          cases hparts
          exact ⟨by omega, by omega⟩
        · exact absurd hparts (hfloat _ _)
  · exact absurd hparts (hfloat _ _)

/-! ## Shapes -/

/-- What the token reads as is a number that can be written. -/
def Token.IsScanned (token : Token Number) : Prop := ∀ n, token.read = .ok n → n.IsScanned

mutual

/-- The numbers in the shape can all be written. -/
def Node.IsScanned : Node → Prop
  | .absent _ | .word _ | .null | .bool _ | .text _ => True
  | .number token => token.IsScanned
  | .list items => items.IsScanned
  | .object members => members.IsScanned

def Items.IsScanned : Items → Prop
  | .close | .broken _ => True
  | .item value rest => value.IsScanned ∧ rest.IsScanned

def Members.IsScanned : Members → Prop
  | .close | .broken _ | .noKey _ => True
  | .member _ value rest => value.IsScanned ∧ rest.IsScanned

end

theorem isScanned_scanNumeral {s : List Glyph} {token : Token Number} {r : Option (List Glyph)}
    (h : scanNumeral s = (token, r)) : token.IsScanned := by
  unfold scanNumeral at h
  split at h
  · cases h
    exact fun _ hn => nomatch hn
  · next parts rest _ =>
    split at h
    · next x hx =>
      cases h
      exact fun n hn => ⟨parts, Except.ok.inj hn ▸ hx⟩
    · cases h
      exact fun _ hn => nomatch hn

theorem isScanned_wordNode {plain node : Node} {r : Except Break (List Glyph)}
    {rest : Option (List Glyph)} (h : wordNode plain r = (node, rest))
    (hplain : plain.IsScanned) : node.IsScanned := by
  cases r with
  | ok rest =>
    cases h
    exact hplain
  | error b =>
    cases h
    trivial

/-- However far the scanner gets, the numbers it has seen can all be written. -/
theorem isScanned_of_fuel (fuel : Nat) :
    (∀ s node r, scanValue fuel s = (node, r) → node.IsScanned) ∧
      (∀ s items r, scanItems fuel s = (items, r) → items.IsScanned) ∧
      ∀ s members r, scanMember fuel s = (members, r) → members.IsScanned := by
  induction fuel with
  | zero =>
    refine ⟨fun s node r h => ?_, fun s items r h => ?_, fun s members r h => ?_⟩
    all_goals cases h; trivial
  | succ fuel ih =>
    obtain ⟨hvalue, hitems, hmember⟩ := ih
    refine ⟨fun s node r h => ?_, fun s items r h => ?_, fun s members r h => ?_⟩
    · unfold scanValue at h
      -- Every branch ends in a plain node or in what one of the scanners finds.
      repeat' split at h
      all_goals
        first
        | exact isScanned_wordNode h trivial
        | cases h
      all_goals
        first
        | exact isScanned_scanNumeral ‹_›
        | exact hitems _ _ _ ‹_›
        | exact hmember _ _ _ ‹_›
        | trivial
    · unfold scanItems at h
      repeat' split at h
      all_goals cases h
      all_goals
        first
        | exact ⟨hvalue _ _ _ ‹_›, trivial⟩
        | exact ⟨hvalue _ _ _ ‹_›, hitems _ _ _ ‹_›⟩
    · unfold scanMember at h
      repeat' split at h
      all_goals cases h
      all_goals
        first
        | exact ⟨trivial, trivial⟩
        | exact ⟨hvalue _ _ _ ‹_›, trivial⟩
        | exact ⟨hvalue _ _ _ ‹_›, trivial, trivial⟩
        | exact ⟨hvalue _ _ _ ‹_›, hmember _ _ _ ‹_›⟩

/-- The numbers of a text can all be written. -/
theorem isScanned_scan (s : List Glyph) : (Document.scan s).root.IsScanned := by
  have h := (isScanned_of_fuel (2 * s.length + 2)).1 s
  unfold Document.scan
  split
  · exact h _ _ ‹_›
  · exact h _ _ ‹_›

end Json

end Flowline
