import Flowline.Json.Numeral
import Flowline.Json.Text

/-!
# Written numbers are scanned back

A `Numeral` has a written form, `Numeral.chars`: a sign, digits, a point with digits, an exponent.
If the digits are such that they can be written (`Numeral.IsProper`), the scanner finds the same
parts again and stops where the number stops (`scanParts_chars`), provided that what follows does
not go on with the number (`EndsNumber`).

An integer that 64 bits hold is written as such a form and read as itself (`scanNumeral_integer`).
-/

namespace Flowline.Json

open Text Decimal

/-! ## Digits -/

/-- A text of digits, at least one. -/
def IsDigits (ds : List Char) : Prop := ds ≠ [] ∧ ∀ c ∈ ds, c.isDigit = true

theorem IsDigits.take {ds : List Char} (h : IsDigits ds) {n : Nat} (hn : 0 < n) :
    IsDigits (ds.take n) := by
  refine ⟨?_, fun c hc => h.2 c (List.mem_of_mem_take hc)⟩
  rw [ne_eq, List.take_eq_nil_iff]
  exact not_or.2 ⟨Nat.ne_of_gt hn, h.1⟩

theorem IsDigits.drop {ds : List Char} (h : IsDigits ds) {n : Nat} (hne : ds.drop n ≠ []) :
    IsDigits (ds.drop n) := ⟨hne, fun c hc => h.2 c (List.mem_of_mem_drop hc)⟩

theorem isDigits_toDigits (n : Nat) : IsDigits (Nat.toDigits 10 n) :=
  ⟨Nat.toDigits_ne_nil, fun _ hc => Nat.isDigit_of_mem_toDigits (by decide) (by decide) hc⟩

/-- The digits of a number do not begin with a zero, but for zero itself. -/
theorem head?_toDigits {n : Nat} (h : 0 < n) : (Nat.toDigits 10 n).head? ≠ some '0' := by
  induction n using Nat.strongRecOn with
  | ind n ih =>
    by_cases hn : n < 10
    · have hdigits : ∀ m < 10, 0 < m → Nat.digitChar m ≠ '0' := by decide
      rw [Nat.toDigits_of_lt_base hn]
      simpa using hdigits n hn h
    · have hpos : 0 < n / 10 := by omega
      have hne : Nat.toDigits 10 (n / 10) ≠ [] := Nat.toDigits_ne_nil
      obtain ⟨c, cs, hcs⟩ := List.exists_cons_of_ne_nil hne
      have hhead := ih (n / 10) (by omega) hpos
      rw [hcs] at hhead
      rw [Nat.toDigits_of_base_le (by decide) (by omega), hcs]
      exact hhead

theorem digitsValue_toDigits (n : Nat) : digitsValue (Nat.toDigits 10 n) = n :=
  Nat.ofDigitChars_ten_toDigits

/-- What may follow a run of digits. -/
def EndsDigits (rest : List Glyph) : Prop := ∀ c, rest.head? = some (.char c) → c.isDigit = false

/-- What may follow a number. -/
def EndsNumber (rest : List Glyph) : Prop :=
  ∀ c, rest.head? = some (.char c) → c.isDigit = false ∧ c ≠ '.' ∧ c ≠ 'e' ∧ c ≠ 'E'

theorem endsNumber_nil : EndsNumber [] := fun _ h => nomatch h

theorem endsNumber_cons {c : Char} {rest : List Glyph}
    (h : c.isDigit = false ∧ c ≠ '.' ∧ c ≠ 'e' ∧ c ≠ 'E') : EndsNumber (.char c :: rest) := by
  intro c' hc'
  cases hc'
  exact h

theorem EndsNumber.digits {rest : List Glyph} (h : EndsNumber rest) : EndsDigits rest :=
  fun c hc => (h c hc).1

theorem endsDigits_cons {c : Char} {rest : List Glyph} (h : c.isDigit = false) :
    EndsDigits (.char c :: rest) := by
  intro c' hc'
  cases hc'
  exact h

section Run

variable {ds : List Char} {rest : List Glyph}

theorem digitRun_of_ends (hrest : EndsDigits rest) : digitRun rest = ([], rest) := by
  cases rest with
  | nil => rfl
  | cons g rest =>
    cases g with
    | stray b => rfl
    | char c => simp [digitRun, hrest c rfl]

theorem digitRun_append (hds : ∀ c ∈ ds, c.isDigit = true) (hrest : EndsDigits rest) :
    digitRun (ds.map .char ++ rest) = (ds, rest) := by
  induction ds with
  | nil => exact digitRun_of_ends hrest
  | cons c ds ih =>
    obtain ⟨hc, hds⟩ := List.forall_mem_cons.1 hds
    simp [digitRun, hc, ih hds]

theorem digitRun₁_append (hds : IsDigits ds) (hrest : EndsDigits rest) :
    digitRun₁ (ds.map .char ++ rest) = .ok (ds, rest) := by
  unfold digitRun₁
  rw [digitRun_append hds.2 hrest]
  cases ds with
  | nil => exact absurd rfl hds.1
  | cons c ds => rfl

theorem scanWhole_append (hds : IsDigits ds) (hzero : ds.head? = some '0' → ds = ['0'])
    (hrest : EndsDigits rest) : scanWhole (ds.map .char ++ rest) = .ok (ds, rest) := by
  unfold scanWhole
  rw [digitRun₁_append hds hrest]
  split
  · next heq =>
    cases heq
    cases hzero rfl
  · rfl

end Run

/-! ## Parts -/

namespace Numeral

/-- The point and the digits behind it. -/
def fractionChars : Option (List Char) → List Char
  | none => []
  | some ds => '.' :: ds

/-- The exponent, which is always written with a sign. -/
def exponentChars : Option Int → List Char
  | none => []
  | some e => 'e' :: (exponentText e).toList

/-- The number as it is written. -/
def chars (n : Numeral) : List Char :=
  (if n.negative then ['-'] else []) ++ n.whole ++ fractionChars n.fraction ++
    exponentChars n.exponent

/-- The parts can be written: there are digits where there must be, and no zero in front. -/
structure IsProper (n : Numeral) : Prop where
  whole : IsDigits n.whole
  zero : n.whole.head? = some '0' → n.whole = ['0']
  fraction : ∀ ds ∈ n.fraction, IsDigits ds

/-- The parts of an integer. -/
def ofInt (n : Int) : Numeral := ⟨decide (n < 0), Nat.toDigits 10 n.natAbs, none, none⟩

theorem isProper_ofInt (n : Int) : (ofInt n).IsProper where
  whole := isDigits_toDigits n.natAbs
  zero := by
    intro h
    by_cases hn : n.natAbs = 0
    · simp [ofInt, hn]
    · exact absurd h (head?_toDigits (Nat.pos_of_ne_zero hn))
  fraction := by simp [ofInt]

end Numeral

theorem toList_exponentText (e : Int) :
    (exponentText e).toList = (if e < 0 then '-' else '+') :: Nat.toDigits 10 e.natAbs := by
  unfold exponentText
  rw [String.toList_append, Nat.toList_repr]
  split <;> rfl

section Parts

variable {rest : List Glyph}

theorem scanExponent_append (e : Option Int) (hrest : EndsNumber rest) :
    scanExponent ((Numeral.exponentChars e).map .char ++ rest) = .ok (e, rest) := by
  cases e with
  | none =>
    cases rest with
    | nil => rfl
    | cons g rest =>
      cases g with
      | stray b => rfl
      | char c =>
        obtain ⟨-, -, he, hE⟩ := hrest c rfl
        simp [Numeral.exponentChars, scanExponent, he, hE]
  | some e =>
    have hrun := digitRun₁_append (isDigits_toDigits e.natAbs) hrest.digits
    have hvalue : ((digitsValue (Nat.toDigits 10 e.natAbs) : Nat) : Int) = e.natAbs := by
      rw [digitsValue_toDigits]
    simp only [Numeral.exponentChars, toList_exponentText, List.map_cons, List.cons_append]
    by_cases he : e < 0
    · simp only [he, if_true, scanExponent, scanSign, hrun, bind, Except.bind, pure, Except.pure,
        hvalue]
      rw [show -((e.natAbs : Nat) : Int) = e by omega]
    · simp only [he, if_false, scanExponent, scanSign, hrun, bind, Except.bind, pure, Except.pure,
        hvalue, Bool.false_eq_true]
      rw [show ((e.natAbs : Nat) : Int) = e by omega]

theorem endsDigits_exponentChars (e : Option Int) (hrest : EndsNumber rest) :
    EndsDigits ((Numeral.exponentChars e).map .char ++ rest) := by
  cases e with
  | none => exact hrest.digits
  | some e => exact endsDigits_cons (by decide)

theorem scanFraction_append {ds : Option (List Char)} (hds : ∀ d ∈ ds, IsDigits d) (e : Option Int)
    (hrest : EndsNumber rest) :
    scanFraction ((Numeral.fractionChars ds).map .char ++
      ((Numeral.exponentChars e).map .char ++ rest)) =
      .ok (ds, (Numeral.exponentChars e).map .char ++ rest) := by
  have hexponent := endsDigits_exponentChars e hrest
  cases ds with
  | some ds =>
    simp only [Numeral.fractionChars, List.map_cons, List.cons_append, scanFraction,
      digitRun₁_append (hds ds rfl) hexponent]
    rfl
  | none =>
    cases e with
    | some e => simp [Numeral.fractionChars, Numeral.exponentChars, scanFraction]
    | none =>
      cases rest with
      | nil => rfl
      | cons g rest =>
        cases g with
        | stray b => rfl
        | char c => simp [Numeral.fractionChars, Numeral.exponentChars, scanFraction,
            (hrest c rfl).2.1]

theorem endsDigits_fractionChars (ds : Option (List Char)) (e : Option Int)
    (hrest : EndsNumber rest) :
    EndsDigits ((Numeral.fractionChars ds).map .char ++
      ((Numeral.exponentChars e).map .char ++ rest)) := by
  cases ds with
  | none => exact endsDigits_exponentChars e hrest
  | some ds => exact endsDigits_cons (by decide)

/-- The parts of a number are found again in what is written, whatever ends it. -/
theorem scanParts_chars {n : Numeral} (hn : n.IsProper) (hrest : EndsNumber rest) :
    scanParts (n.chars.map .char ++ rest) = .ok (n, rest) := by
  obtain ⟨negative, whole, fraction, exponent⟩ := n
  have hwhole :=
    scanWhole_append hn.whole hn.zero (endsDigits_fractionChars fraction exponent hrest)
  have hfraction := scanFraction_append hn.fraction exponent hrest
  have hexponent := scanExponent_append exponent hrest
  simp only [Numeral.chars, List.map_append, List.append_assoc]
  cases negative with
  | true =>
    simp only [if_true, List.map_cons, List.map_nil, List.cons_append, List.nil_append, scanParts,
      hwhole, hfraction, hexponent, bind, Except.bind]
    rfl
  | false =>
    obtain ⟨c, whole, rfl⟩ : ∃ c cs, whole = c :: cs := List.exists_cons_of_ne_nil hn.whole.1
    have hsign : c ≠ '-' := by
      rintro rfl
      exact absurd (hn.whole.2 '-' List.mem_cons_self) (by decide)
    simp only [Bool.false_eq_true, if_false, List.map_nil, List.nil_append]
    unfold scanParts
    split
    next start s hstart =>
      split at hstart
      · next h => exact absurd (Glyph.char.inj (List.cons.inj h).1) hsign
      · cases hstart
        simp only [hwhole, hfraction, hexponent, bind, Except.bind]
        rfl

end Parts

/-! ## Integers -/

/-- The integers that a number without point and exponent may stand for. -/
def IsInteger64 (n : Int) : Prop := -0x8000000000000000 ≤ n ∧ n ≤ 0xFFFFFFFFFFFFFFFF

instance (n : Int) : Decidable (IsInteger64 n) := inferInstanceAs (Decidable (_ ∧ _))

theorem le_ofDigitChars (ds : List Char) (s : Nat) : s ≤ Nat.ofDigitChars 10 ds s := by
  induction ds generalizing s with
  | nil => simp
  | cons c ds ih =>
    rw [Nat.ofDigitChars_cons]
    exact Nat.le_trans (by omega) (ih _)

/-- Digits are all taken if 64 bits hold the number that they spell. -/
theorem appendDigits_eq {ds : List Char} {s : Nat} (h : Nat.ofDigitChars 10 ds s ≤ greatestNat64) :
    appendDigits s ds = (Nat.ofDigitChars 10 ds s, ds.length, 0) := by
  induction ds generalizing s with
  | nil => rfl
  | cons c ds ih =>
    rw [Nat.ofDigitChars_cons] at h
    have hnext : 10 * s + (c.toNat - '0'.toNat) ≤ greatestNat64 :=
      Nat.le_trans (le_ofDigitChars ds _) h
    simp only [appendDigits, hnext, if_true, ih h, List.length_cons]
    rw [Nat.ofDigitChars_cons]

theorem value?_ofInt {n : Int} (h : IsInteger64 n) :
    (Numeral.ofInt n).value? = some (.integer n) := by
  have hvalue : Nat.ofDigitChars 10 (Nat.toDigits 10 n.natAbs) 0 = n.natAbs :=
    Nat.ofDigitChars_ten_toDigits
  have hle : Nat.ofDigitChars 10 (Nat.toDigits 10 n.natAbs) 0 ≤ greatestNat64 := by
    rw [hvalue, greatestNat64]
    have := h.1
    have := h.2
    omega
  unfold Numeral.value? Numeral.ofInt
  simp only [appendDigits_eq hle, hvalue, ne_eq, not_true_eq_false, if_false]
  by_cases hneg : n < 0
  · have hbounds : n.natAbs ≠ 0 ∧ n.natAbs ≤ 0x8000000000000000 := by
      have := h.1
      omega
    simp only [hneg, decide_true, not_true_eq_false, if_false, hbounds, not_false_eq_true,
      true_and, if_true]
    rw [show -((n.natAbs : Nat) : Int) = n by omega]
  · simp only [hneg, decide_false, Bool.false_eq_true, not_false_eq_true, if_true]
    rw [show ((n.natAbs : Nat) : Int) = n by omega]

theorem numeral_integer (n : Int) : numeral (.integer n) = (Numeral.ofInt n).chars := by
  simp only [numeral]
  unfold Text.integerText Numeral.chars Numeral.ofInt
  rw [String.toList_append, Nat.toList_repr]
  by_cases h : n < 0
  · simp [h, Numeral.fractionChars, Numeral.exponentChars]
  · simp [h, Numeral.fractionChars, Numeral.exponentChars]

/-- A number with proper parts is scanned as what its parts stand for. -/
theorem scanNumeral_chars {n : Numeral} (hn : n.IsProper) {x : Number} (hx : n.value? = some x)
    {rest : List Glyph} (hrest : EndsNumber rest) :
    scanNumeral (n.chars.map .char ++ rest) = (.good x, some rest) := by
  unfold scanNumeral
  rw [scanParts_chars hn hrest]
  simp only [hx]

/-- An integer that 64 bits hold is scanned back. -/
theorem scanNumeral_integer {n : Int} (h : IsInteger64 n) {rest : List Glyph}
    (hrest : EndsNumber rest) :
    scanNumeral ((numeral (.integer n)).map .char ++ rest) = (.good (.integer n), some rest) := by
  rw [numeral_integer]
  exact scanNumeral_chars (Numeral.isProper_ofInt n) (value?_ofInt h) hrest

end Flowline.Json
