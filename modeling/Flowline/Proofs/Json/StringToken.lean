import Flowline.Json.StringToken
import Flowline.Json.Text
import Flowline.Proofs.Text.Integer

/-!
# Written strings are scanned back

A character is written as itself, behind a stroke, or by its code (`escape_cases`). Either way the
scanner decodes it again and goes on behind it (`passString_escape`, `readString_escape`), so
whatever stands in a text, `scanString` gives it back and stops behind the closing quote
(`scanString_quoted`).
-/

namespace Flowline.Json

open Text

/-! ## One character -/

theorem fourHex?_hexDigit {n : Nat} (h : n < 0x20) :
    fourHex? (.char '0') (.char '0') (.char (hexDigit (n / 16))) (.char (hexDigit n)) = some n := by
  have hzero : hexValue? '0' = some 0 := by decide
  simp only [fourHex?, Glyph.char?, hexValue?_hexDigit, hzero, Option.pure_def,
    Option.bind_eq_bind, Option.bind_some, Option.some.injEq]
  omega

/-- How a character can be written. -/
theorem escape_cases (c : Char) :
    (∃ letter, escape c = ['\\', letter] ∧ letter ≠ 'u' ∧ simpleEscape? (.char letter) = some c) ∨
    (c.toNat < 0x20 ∧
      escape c = ['\\', 'u', '0', '0', hexDigit (c.toNat / 16), hexDigit c.toNat]) ∨
    (escape c = [c] ∧ c ≠ '"' ∧ c ≠ '\\' ∧ isControl (.char c) = false) := by
  by_cases hletter : c ∈ ['"', '\\', '\n', '\r', '\t', '\x08', '\x0c']
  · left
    simp only [List.mem_cons, List.not_mem_nil, or_false] at hletter
    rcases hletter with rfl | rfl | rfl | rfl | rfl | rfl | rfl
    all_goals exact ⟨_, rfl, by decide, rfl⟩
  · right
    simp only [List.mem_cons, List.not_mem_nil, or_false, not_or] at hletter
    obtain ⟨hquote, hstroke, hrest⟩ := hletter
    have hescape : escape c = if c.toNat < 0x20 then
        ['\\', 'u', '0', '0', hexDigit (c.toNat / 16), hexDigit c.toNat] else [c] := by
      unfold escape
      split <;> simp_all
    by_cases hcontrol : c.toNat < 0x20
    · exact .inl ⟨hcontrol, by rw [hescape, if_pos hcontrol]⟩
    · exact .inr ⟨by rw [hescape, if_neg hcontrol], hquote, hstroke, decide_eq_false hcontrol⟩

theorem passString_escape (c : Char) (s : List Glyph) :
    passString ((escape c).map .char ++ s) = passString s := by
  rcases escape_cases c with ⟨letter, hescape, hu, hletter⟩ | ⟨hcontrol, hescape⟩ |
    ⟨hescape, hquote, hstroke, hplain⟩
  · rw [hescape]
    simp [passString, hletter, hu]
  · rw [hescape]
    simp [passString, fourHex?_hexDigit hcontrol]
  · rw [hescape]
    simp [passString, hquote, hstroke, hplain]

theorem readString_escape (c : Char) (s : List Glyph) :
    readString ((escape c).map .char ++ s) = (readString s).map (.char c :: ·) := by
  rcases escape_cases c with ⟨letter, hescape, hu, hletter⟩ | ⟨hcontrol, hescape⟩ |
    ⟨hescape, hquote, hstroke, hplain⟩
  · rw [hescape]
    simp [readString, hletter, hu]
  · have hlow : isLowSurrogate c.toNat = false := by
      simp only [isLowSurrogate, Bool.and_eq_false_iff, decide_eq_false_iff_not]
      omega
    have hhigh : isHighSurrogate c.toNat = false := by
      simp only [isHighSurrogate, Bool.and_eq_false_iff, decide_eq_false_iff_not]
      omega
    rw [hescape]
    simp [readString, fourHex?_hexDigit hcontrol, hlow, hhigh]
  · rw [hescape]
    simp [readString, hquote, hstroke, hplain]

/-! ## Whole strings -/

section Body

variable (s : List Char) (rest : List Glyph)

theorem passString_flatMap_escape :
    passString ((s.flatMap escape).map .char ++ .char '"' :: rest) = .ok rest := by
  induction s with
  | nil => simp [passString]
  | cons c s ih => rw [List.flatMap_cons, List.map_append, List.append_assoc, passString_escape, ih]

theorem readString_flatMap_escape :
    readString ((s.flatMap escape).map .char ++ .char '"' :: rest) = .ok (s.map .char) := by
  induction s with
  | nil => simp [readString]
  | cons c s ih =>
    rw [List.flatMap_cons, List.map_append, List.append_assoc, readString_escape, ih]
    rfl

end Body

theorem readText_flatMap_escape (s : String) (rest : List Glyph) :
    readText ((s.toList.flatMap escape).map .char ++ .char '"' :: rest) = .ok s := by
  unfold readText
  rw [readString_flatMap_escape]
  simp only [bind, Except.bind, Glyph.characters?_map_char, String.ofList_toList]
  rfl

/-- Whatever text stands between the quotes, it is scanned back. -/
theorem scanString_quoted (s : String) (rest : List Glyph) :
    scanString ((s.toList.flatMap escape).map .char ++ .char '"' :: rest) =
      (.good s, some rest) := by
  unfold scanString
  rw [passString_flatMap_escape, readText_flatMap_escape]
  rfl

end Flowline.Json
