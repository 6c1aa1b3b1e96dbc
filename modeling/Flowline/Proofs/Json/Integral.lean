import Flowline.Proofs.Json.Reading
import Flowline.Proofs.Json.Spelling
import Flowline.Proofs.Text.Utf8

/-!
# Values without floats

A value is integral if all numbers in it are integers that 64 bits hold. Such a value is scanned
back from its text as it is, so a reader does the same with the text and with the value,
whichever of the two ways it is written in (`IsIntegral.run_written`).
-/

namespace Flowline

/-- An integer that 64 bits hold. -/
def Number.IsInteger64 : Number → Prop
  | .integer n => Json.IsInteger64 n
  | .float _ => False

instance : DecidablePred Number.IsInteger64
  | .integer n => inferInstanceAs (Decidable (Json.IsInteger64 n))
  | .float _ => .isFalse id

namespace Json

open Text

/-- All numbers in the value are integers that 64 bits hold. -/
def IsIntegral (j : Json) : Prop := ∀ n ∈ j.numbers, n.IsInteger64

instance (j : Json) : Decidable j.IsIntegral := inferInstanceAs (Decidable (∀ n ∈ _, _))

theorem isIntegral_null : null.IsIntegral := by simp [IsIntegral]

theorem isIntegral_text (s : String) : (text s).IsIntegral := by simp [IsIntegral]

theorem isIntegral_int {n : Int} (h : IsInteger64 n) : (int n).IsIntegral := by
  intro m hm
  rw [int, numbers_number, List.mem_singleton] at hm
  rw [hm]
  exact h

theorem isIntegral_nat {n : Nat} (h : n ≤ 0xFFFFFFFFFFFFFFFF) : (nat n).IsIntegral :=
  isIntegral_int (by unfold IsInteger64; omega)

theorem isIntegral_list {items : List Json} :
    (list items).IsIntegral ↔ ∀ x ∈ items, x.IsIntegral := by
  simp only [IsIntegral, numbers_list, List.mem_flatMap, forall_exists_index, and_imp]
  exact ⟨fun h x hx n hn => h n x hx hn, fun h n x hx hn => h x hx n hn⟩

theorem isIntegral_object {members : List (String × Json)} :
    (object members).IsIntegral ↔ ∀ e ∈ members, e.2.IsIntegral := by
  simp only [IsIntegral, numbers_object, List.mem_flatMap, forall_exists_index, and_imp]
  exact ⟨fun h e he n hn => h n e he hn, fun h n e he hn => h e he n hn⟩

theorem exists_of_isInteger64 {n : Number} (h : n.IsInteger64) :
    ∃ i, n = .integer i ∧ IsInteger64 i := by
  cases n with
  | integer i => exact ⟨i, rfl, h⟩
  | float x => exact h.elim

theorem IsIntegral.isReadable {j : Json} (h : j.IsIntegral) : ∀ n ∈ j.numbers, n.IsReadable := by
  intro n hn
  obtain ⟨i, rfl, hi⟩ := exists_of_isInteger64 (h n hn)
  exact isReadable_integer hi

theorem IsIntegral.reread {j : Json} (h : j.IsIntegral) : Node.reread j = Node.ofJson j := by
  refine congrArg Node.ofJson (mapNumbers_eq_self fun n hn => ?_)
  obtain ⟨i, rfl, hi⟩ := exists_of_isInteger64 (h n hn)
  exact reread_integer hi

/-- An integral value is scanned back from its text, without blanks or over lines. -/
theorem IsIntegral.scan_written {j : Json} (h : j.IsIntegral) {write : Json → String}
    (hwrite : write = Json.compact ∨ write = Json.pretty) :
    Document.scan (Glyph.ofString (write j)) = ⟨Node.ofJson j, false⟩ := by
  rcases hwrite with rfl | rfl
  · rw [scan_compact h.isReadable, h.reread]
  · rw [scan_pretty h.isReadable, h.reread]

/-- A reader does with the text of an integral value what it does with the value. -/
theorem IsIntegral.run_written {j : Json} (h : j.IsIntegral) {write : Json → String}
    (hwrite : write = Json.compact ∨ write = Json.pretty) {α : Type} (r : Reader α) :
    r.run (Glyph.ofBytes (write j).toUTF8.toList) = r Mode.start (Node.ofJson j) := by
  rw [Glyph.ofBytes_toUTF8, Reader.run, h.scan_written hwrite]
  cases r Mode.start (Node.ofJson j) with
  | error fault => rfl
  | ok a => rfl

end Json

end Flowline
