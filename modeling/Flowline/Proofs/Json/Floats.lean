import Flowline.Proofs.Decimal.Scaling
import Flowline.Proofs.Decimal.Shortest
import Flowline.Proofs.Json.Scanned
import Flowline.Proofs.Json.Spelling

/-!
# Floats are read from their text

The text of a float has one of four forms (`Scientific.Form`), each of them that of a number, and
what it stands for is a number that binary64 holds, also for the greatest floats, whose digits are
rounded up when they are read (`exists_ofParts?_shortest`). So every number that can be scanned can
be written and scanned again (`isReadable_of_isScanned`), though a float need not come back as
itself.
-/

namespace Flowline

open Json Text Decimal

/-! ## Digits of a number with a point or an exponent -/

namespace Json

theorem greatestNat64_le : greatestNat64 ≤ 2 ^ 64 := by decide

/-- A number with a point or an exponent whose digits are all taken. -/
theorem Numeral.value?_of_digits {n : Numeral} (significand : Nat)
    (hform : n.fraction ≠ none ∨ n.exponent ≠ none)
    (hdigits : Nat.ofDigitChars 10 (n.whole ++ n.fraction.getD []) 0 = significand)
    (hle : significand ≤ greatestNat64) :
    n.value? = (Double.ofParts? n.negative significand
      (n.exponent.getD 0 - (n.fraction.getD []).length)).map .float := by
  obtain ⟨negative, whole, fraction, exponent⟩ := n
  rw [Nat.ofDigitChars_append] at hdigits
  have hfraction := appendDigits_eq (hdigits.trans_le hle)
  have hwhole := appendDigits_eq (((le_ofDigitChars _ _).trans hdigits.le).trans hle)
  rw [hdigits] at hfraction
  have hexponent : ((0 : Nat) : Int) - ((fraction.getD []).length : Nat) + exponent.getD 0 =
      exponent.getD 0 - (fraction.getD []).length := by omega
  unfold Numeral.value?
  cases fraction with
  | some ds => simp only [hwhole, hfraction, hexponent]
  | none =>
    cases exponent with
    | some e => simp only [hwhole, hfraction, hexponent]
    | none => simp at hform

end Json

namespace Decimal.Scientific

/-! ## The text of a decimal -/

/-- The digits as they are written. -/
def chars (d : Scientific) : List Char := Nat.toDigits 10 d.digits

/-- The exponent of the first digit. -/
def lead (d : Scientific) : Int := d.exponent + d.chars.length - 1

/-- The digits behind a point; without digits there is no point. -/
def pointed (ds : List Char) : Option (List Char) := if ds = [] then none else some ds

/-- The parts of the number that is written for a decimal: with an exponent, as a whole number, with
the point between the digits, or with the point before them. -/
inductive Form (negative : Bool) (d : Scientific) : Numeral → Prop
  | exponent (hlead : exponentFormFrom ≤ d.lead ∨ d.lead < exponentFormBelow) :
      Form negative d ⟨negative, d.chars.take 1, pointed (d.chars.drop 1), some d.lead⟩
  | whole (hexponent : 0 ≤ d.exponent) (hlead : d.lead < exponentFormFrom) :
      Form negative d
        ⟨negative, d.chars ++ List.replicate d.exponent.toNat '0', some ['0'], none⟩
  | point (hexponent : d.exponent < 0) (hlead : 0 ≤ d.lead) :
      Form negative d ⟨negative, d.chars.take (d.lead + 1).toNat,
        some (d.chars.drop (d.lead + 1).toNat), none⟩
  | small (hlead : d.lead < 0) :
      Form negative d
        ⟨negative, ['0'], some (List.replicate (-d.lead - 1).toNat '0' ++ d.chars), none⟩

theorem isDigits_chars (d : Scientific) : IsDigits d.chars := isDigits_toDigits d.digits

theorem ofDigitChars_chars (d : Scientific) : Nat.ofDigitChars 10 d.chars 0 = d.digits :=
  Nat.ofDigitChars_ten_toDigits

theorem length_chars_pos (d : Scientific) : 0 < d.chars.length :=
  List.length_pos_iff.2 d.isDigits_chars.1

theorem exists_form (negative : Bool) (d : Scientific) : ∃ parts, Form negative d parts ∧
    parts.chars = (if negative then ['-'] else []) ++ d.text.toList := by
  have hdigits : d.digits.repr.toList = d.chars := Nat.toList_repr
  have hlead : d.exponent + (d.chars.length : Int) - 1 = d.lead := rfl
  unfold Scientific.text
  simp only [hdigits, hlead]
  by_cases hform : exponentFormFrom ≤ d.lead ∨ d.lead < exponentFormBelow
  · refine ⟨_, .exponent hform, ?_⟩
    obtain ⟨c, cs, hcs⟩ := List.exists_cons_of_ne_nil d.isDigits_chars.1
    rw [if_pos hform, hcs]
    cases cs <;> simp [Numeral.chars, Numeral.fractionChars, Numeral.exponentChars, pointed]
  · rw [if_neg hform]
    by_cases hexponent : 0 ≤ d.exponent
    · refine ⟨_, .whole hexponent (by omega), ?_⟩
      simp [hexponent, Numeral.chars, Numeral.fractionChars, Numeral.exponentChars]
    · rw [if_neg hexponent]
      by_cases hwhole : 0 ≤ d.lead
      · refine ⟨_, .point (by omega) hwhole, ?_⟩
        simp [hwhole, Numeral.chars, Numeral.fractionChars, Numeral.exponentChars]
      · refine ⟨_, .small (by omega), ?_⟩
        simp [hwhole, Numeral.chars, Numeral.fractionChars, Numeral.exponentChars]

theorem head?_chars {d : Scientific} (hzero : d.digits = 0 → d.exponent = 0)
    (hhead : d.chars.head? = some '0') : d.chars = ['0'] ∧ d.exponent = 0 ∧ d.lead = 0 := by
  have hdigits : d.digits = 0 := by
    by_contra hne
    exact head?_toDigits (Nat.pos_of_ne_zero hne) hhead
  have hchars : d.chars = ['0'] := by
    rw [chars, hdigits]
    rfl
  have hexponent := hzero hdigits
  refine ⟨hchars, hexponent, ?_⟩
  rw [lead, hchars, hexponent]
  rfl

theorem digits_pos_of_lead_ne_zero {d : Scientific} (hzero : d.digits = 0 → d.exponent = 0)
    (h : d.lead ≠ 0) : 0 < d.digits := by
  by_contra hnone
  refine h (head?_chars hzero ?_).2.2
  rw [chars, Nat.le_zero.1 (Nat.not_lt.1 hnone)]
  rfl

theorem getD_pointed (ds : List Char) : (pointed ds).getD [] = ds := by
  unfold pointed
  split
  · next hnil =>
    rw [hnil]
    rfl
  · rfl

/-- A decimal that is written as a whole number has at most sixteen digits before the point. -/
theorem scaled_lt {d : Scientific} (hexponent : 0 ≤ d.exponent)
    (hlead : d.lead < exponentFormFrom) : 10 ^ d.exponent.toNat * d.digits < 10 ^ 16 := by
  have hcount : d.digits < 10 ^ d.chars.length :=
    (Nat.length_toDigits_le_iff (by decide) d.length_chars_pos).1 (Nat.le_refl _)
  have hlength : d.exponent + (d.chars.length : Int) - 1 = d.lead := rfl
  rw [exponentFormFrom] at hlead
  calc 10 ^ d.exponent.toNat * d.digits < 10 ^ d.exponent.toNat * 10 ^ d.chars.length := by gcongr
    _ = 10 ^ (d.exponent.toNat + d.chars.length) := (pow_add ..).symm
    _ ≤ 10 ^ 16 := Nat.pow_le_pow_right (by decide) (by omega)

/-- A number with all digits of a decimal, and as many places as the decimal has. -/
theorem value?_of_digits {d : Scientific} {n : Numeral}
    (hform : n.fraction ≠ none ∨ n.exponent ≠ none) (hsmall : d.digits ≤ greatestNat64)
    (hdigits : Nat.ofDigitChars 10 (n.whole ++ n.fraction.getD []) 0 = d.digits)
    (hexponent : n.exponent.getD 0 - ((n.fraction.getD []).length : Int) = d.exponent) :
    n.value? = (Double.ofParts? n.negative d.digits d.exponent).map .float := by
  rw [Numeral.value?_of_digits d.digits hform hdigits hsmall, hexponent]

theorem isDigits_zero : IsDigits ['0'] :=
  ⟨List.cons_ne_nil _ _, List.forall_mem_singleton.2 rfl⟩

theorem isDigit_of_mem_replicate {n : Nat} {c : Char} (h : c ∈ List.replicate n '0') :
    c.isDigit = true := by
  rw [(List.mem_replicate.1 h).2]
  rfl

section Form

variable {d : Scientific} {negative : Bool} {parts : Numeral} (h : Form negative d parts)

include h

theorem Form.isProper (hzero : d.digits = 0 → d.exponent = 0) : parts.IsProper := by
  have hdigits := d.isDigits_chars
  have hlength := d.length_chars_pos
  have hlead : d.exponent + (d.chars.length : Int) - 1 = d.lead := rfl
  cases h with
  | exponent hform =>
    refine ⟨hdigits.take Nat.one_pos, fun hhead => ?_, fun ds hds => ?_⟩
    · -- Zero is written as a whole number.
      rw [List.head?_take, if_neg Nat.one_ne_zero] at hhead
      have hnone := (head?_chars hzero hhead).2.2
      rw [hnone] at hform
      exact absurd hform (by decide)
    · unfold pointed at hds
      split at hds
      · cases hds
      · next hne =>
        cases hds
        exact hdigits.drop hne
  | whole hexponent hlead =>
    refine ⟨⟨by simp [hdigits.1], fun c hc => ?_⟩, fun hhead => ?_, ?_⟩
    · rcases List.mem_append.1 hc with hc | hc
      · exact hdigits.2 c hc
      · exact isDigit_of_mem_replicate hc
    · rw [List.head?_append_of_ne_nil _ hdigits.1] at hhead
      obtain ⟨hchars, hnone, -⟩ := head?_chars hzero hhead
      simp [hchars, hnone]
    · rintro ds ⟨⟩
      exact isDigits_zero
  | point hexponent hwhole =>
    refine ⟨hdigits.take (by omega), fun hhead => ?_, ?_⟩
    · rw [List.head?_take, if_neg (by omega)] at hhead
      have hnone := (head?_chars hzero hhead).2.1
      omega
    · rintro ds ⟨⟩
      refine hdigits.drop ?_
      rw [ne_eq, List.drop_eq_nil_iff]
      omega
  | small hsmall =>
    refine ⟨isDigits_zero, fun _ => rfl, ?_⟩
    rintro ds ⟨⟩
    refine ⟨by simp [hdigits.1], fun c hc => ?_⟩
    rcases List.mem_append.1 hc with hc | hc
    · exact isDigit_of_mem_replicate hc
    · exact hdigits.2 c hc

/-- What stands behind each form: the decimal itself, or a greater significand scaled down. -/
theorem Form.exists_value (hzero : d.digits = 0 → d.exponent = 0) (hdigits : d.digits ≤ 10 ^ 17) :
    ∃ significand exponent, parts.value? =
      (Double.ofParts? negative significand exponent).map .float ∧ significand ≤ 2 ^ 64 ∧
        (0 ≤ exponent → significand = d.digits ∧ exponent = d.exponent ∧ 0 < d.digits) := by
  have hlength := d.length_chars_pos
  have hlead : d.exponent + (d.chars.length : Int) - 1 = d.lead := rfl
  have hsmall : d.digits ≤ greatestNat64 := hdigits.trans (by decide)
  have hbound : d.digits ≤ 2 ^ 64 := hsmall.trans greatestNat64_le
  cases h with
  | exponent hform =>
    have hne : d.lead ≠ 0 := by
      intro hnone
      rw [hnone] at hform
      exact absurd hform (by decide)
    refine ⟨d.digits, d.exponent, value?_of_digits (.inr (by simp)) hsmall ?_ ?_, hbound,
      fun _ => ⟨rfl, rfl, digits_pos_of_lead_ne_zero hzero hne⟩⟩
    · rw [getD_pointed, List.take_append_drop, ofDigitChars_chars]
    · rw [getD_pointed, List.length_drop, Option.getD_some]
      omega
  | whole hexponent hwhole =>
    have hscaled := scaled_lt hexponent hwhole
    have hle : 10 * (10 ^ d.exponent.toNat * d.digits) ≤ greatestNat64 := by
      rw [greatestNat64]
      omega
    refine ⟨10 * (10 ^ d.exponent.toNat * d.digits), -1, ?_, hle.trans greatestNat64_le,
      fun hup => absurd hup (by decide)⟩
    rw [Numeral.value?_of_digits _ (.inl (by simp)) ?_ hle]
    · rfl
    · rw [Nat.ofDigitChars_append, Nat.ofDigitChars_append, ofDigitChars_chars,
        Nat.ofDigitChars_replicate_zero]
      rfl
  | point hexponent hwhole =>
    refine ⟨d.digits, d.exponent, value?_of_digits (.inl (by simp)) hsmall ?_ ?_, hbound,
      fun hup => by omega⟩
    · rw [Option.getD_some, List.take_append_drop, ofDigitChars_chars]
    · rw [Option.getD_some, List.length_drop, Option.getD_none]
      omega
  | small hlow =>
    refine ⟨d.digits, d.exponent, value?_of_digits (.inl (by simp)) hsmall ?_ ?_, hbound,
      fun hup => by omega⟩
    · refine Eq.trans ?_ d.ofDigitChars_chars
      rw [Option.getD_some, Nat.ofDigitChars_append, Nat.ofDigitChars_append,
        Nat.ofDigitChars_replicate_zero]
      rfl
    · rw [Option.getD_some, List.length_append, List.length_replicate, Option.getD_none]
      omega

end Form

end Decimal.Scientific

namespace Decimal

/-! ## Digits that are read -/

/-- The two greatest floats are read from their digits. -/
theorem isSome_ofParts?_greatest : ∀ m ∈ [2 ^ 53 - 1, 2 ^ 53 - 2], ∀ negative : Bool,
    (Double.ofParts? negative ((shortest m 2046).stripZeros 20).digits
      ((shortest m 2046).stripZeros 20).exponent).isSome = true := by
  decide +kernel

/-- Apart from the two greatest floats there is room for both roundings of reading. -/
theorem halfway_mul_lt {m q : Nat} (hm : m < 2 ^ 53) (hq : q < 2047)
    (hless : q = 2046 → m ≤ 2 ^ 53 - 3) :
    halfway m q * (1 + 1 / 2 ^ 53) ^ 2 < Magnitude.overflow := by
  unfold halfway Magnitude.overflow
  by_cases htop : q = 2046
  · subst htop
    have hle : (m : ℚ) ≤ 2 ^ 53 - 3 := by
      have := hless rfl
      have hcast : (m : ℚ) ≤ ((2 ^ 53 - 3 : Nat) : ℚ) := by exact_mod_cast this
      norm_num at hcast ⊢
      exact hcast
    calc (2 * (m : ℚ) + 1) * 2 ^ (((2046 : Nat) : Int) - 1076) * (1 + 1 / 2 ^ 53) ^ 2
        ≤ (2 * (2 ^ 53 - 3) + 1) * 2 ^ (970 : Int) * (1 + 1 / 2 ^ 53) ^ 2 := by
          gcongr
          · exact one_le_two
          · decide
      _ = (2 * (2 ^ 53 - 3) + 1) * (1 + 1 / 2 ^ 53) ^ 2 * 2 ^ (970 : Int) := by ring
      _ < (2 ^ 54 - 1) * 2 ^ (970 : Int) := by
          gcongr
          norm_num
  · have hle : (m : ℚ) ≤ 2 ^ 53 - 1 := by
      have hcast : (m : ℚ) ≤ ((2 ^ 53 - 1 : Nat) : ℚ) := by exact_mod_cast Nat.le_sub_one_of_lt hm
      norm_num at hcast ⊢
      exact hcast
    calc (2 * (m : ℚ) + 1) * 2 ^ ((q : Int) - 1076) * (1 + 1 / 2 ^ 53) ^ 2
        ≤ (2 * (2 ^ 53 - 1) + 1) * 2 ^ (969 : Int) * (1 + 1 / 2 ^ 53) ^ 2 := by
          gcongr
          · exact one_le_two
          · omega
      _ = (2 * (2 ^ 53 - 1) + 1) * (1 + 1 / 2 ^ 53) ^ 2 * 2 ^ (969 : Int) := by ring
      _ < (2 ^ 54 - 1) * 2 * 2 ^ (969 : Int) :=
          mul_lt_mul_of_pos_right (by norm_num) (by positivity)
      _ = (2 ^ 54 - 1) * 2 ^ (970 : Int) := by
          rw [mul_assoc, ← zpow_one_add₀ two_ne_zero]
          rfl

/-- A decimal that is not above the half-way point behind a float has an exponent of at most 308. -/
theorem Scientific.exponent_le {d : Scientific} (hpos : 0 < d.digits) {e : Nat}
    (he : d.exponent = e) (h : d.toRat < Magnitude.overflow) : e ≤ Double.greatestPower := by
  have hlt : (10 : ℚ) ^ e < 10 ^ 309 := by
    calc (10 : ℚ) ^ e = 1 * 10 ^ (e : Int) := by rw [one_mul, zpow_natCast]
      _ ≤ d.toRat := by
          rw [Scientific.toRat, he]
          gcongr
          exact_mod_cast hpos
      _ < Magnitude.overflow := h
      _ < 2 ^ (1024 : Int) := Magnitude.overflow_lt
      _ = ((2 ^ 1024 : Nat) : ℚ) := by
          rw [Nat.cast_pow, ← zpow_natCast]
          rfl
      _ < ((10 ^ 309 : Nat) : ℚ) := Nat.cast_lt.2 (by decide +kernel)
      _ = 10 ^ 309 := by rw [Nat.cast_pow, Nat.cast_ofNat]
  exact Nat.le_of_lt_succ ((pow_lt_pow_iff_right₀ (by norm_num)).1 hlt)

/-- The digits of a float stand for a number where its exponent scales up. -/
theorem exists_ofParts?_shortest {m q : Nat} (hm : m < 2 ^ 53) (hq : q < 2047) (negative : Bool)
    {d : Scientific} (hd : d = (shortest m q).stripZeros 20) (hexponent : 0 ≤ d.exponent)
    (hpos : 0 < d.digits) : ∃ x, Double.ofParts? negative d.digits d.exponent = some x := by
  have hfits : d.Fits (halfway m q) := hd ▸ (fits_shortest hm hq).stripZeros 20
  by_cases hless : q = 2046 → m ≤ 2 ^ 53 - 3
  · obtain ⟨e, he⟩ := Int.eq_ofNat_of_zero_le hexponent
    have hroom := halfway_mul_lt hm hq hless
    have hone : (1 : ℚ) ≤ (1 + 1 / 2 ^ 53) ^ 2 := by norm_num
    have hnonneg : 0 ≤ d.toRat := by
      unfold Scientific.toRat
      positivity
    have hlt : d.toRat * (1 + 1 / 2 ^ 53) ^ 2 < Magnitude.overflow :=
      (mul_le_mul_of_nonneg_right hfits.value (by positivity)).trans_lt hroom
    have hbelow : d.toRat < Magnitude.overflow := (le_mul_of_one_le_right hnonneg hone).trans_lt hlt
    rw [Scientific.toRat, he, zpow_natCast] at hlt
    rw [he]
    exact Double.exists_ofParts?_of_lt negative hpos (Scientific.exponent_le hpos he hbelow) hlt
  · -- No bound on the error of reading leaves room for these two.
    obtain ⟨rfl, hgreat⟩ := Classical.not_imp.1 hless
    have hmem : m ∈ [2 ^ 53 - 1, 2 ^ 53 - 2] := by
      rw [List.mem_cons, List.mem_singleton]
      omega
    subst hd
    exact Option.isSome_iff_exists.1 (isSome_ofParts?_greatest m hmem negative)

end Decimal

/-! ## Floats -/

namespace Json

/-- The digits of a float that decimal parts stand for are those of a number. -/
theorem isReadable_float {negative : Bool} {significand : Nat} {e : Int} {x : Double}
    (h : Double.ofParts? negative significand e = some x) : (Number.float x).IsReadable := by
  have htext : numeral (.float x) = x.text.toList := rfl
  by_cases hzero : x.significand = 0
  · obtain ⟨y, hy⟩ := Double.exists_ofParts?_of_neg x.isNegative (Nat.zero_le (2 ^ 64))
      (show (-1 : Int) < 0 by decide)
    have hchars : numeral (.float x) =
        (Numeral.mk x.isNegative ['0'] (some ['0']) none).chars := by
      rw [htext, Double.text, if_pos hzero]
      cases x.isNegative <;> rfl
    refine isReadable_of_chars hchars ?_ (x := .float y) ?_
    · refine ⟨Scientific.isDigits_zero, fun _ => rfl, ?_⟩
      rintro ds ⟨⟩
      exact Scientific.isDigits_zero
    · rw [Numeral.value?_of_digits 0 (.inl (by simp)) rfl (Nat.zero_le _)]
      exact congrArg (Option.map Number.float) hy
  · have hm := x.significand_lt
    have hq := Double.exponent_lt_of_ofParts? h
    have hfits := (fits_shortest hm hq).stripZeros 20
    generalize hd : (shortest x.significand x.exponent).stripZeros 20 = d at hfits
    obtain ⟨parts, hform, hchars⟩ := Scientific.exists_form x.isNegative d
    obtain ⟨s, k, hvalue, hs, hup⟩ := hform.exists_value hfits.zero hfits.digits
    obtain ⟨y, hy⟩ : ∃ y, Double.ofParts? x.isNegative s k = some y := by
      by_cases hk : k < 0
      · exact Double.exists_ofParts?_of_neg x.isNegative hs hk
      · obtain ⟨rfl, rfl, hpos⟩ := hup (Int.not_lt.1 hk)
        exact exists_ofParts?_shortest hm hq x.isNegative hd.symm (Int.not_lt.1 hk) hpos
    have hwritten : numeral (.float x) = parts.chars := by
      rw [hchars, htext, Double.text, if_neg hzero, hd]
      cases x.isNegative <;> simp
    refine isReadable_of_chars hwritten (hform.isProper hfits.zero) (x := .float y) ?_
    rw [hvalue, hy]
    rfl

/-- A float that is scanned is made from a significand and an exponent. -/
theorem exists_ofParts?_of_isScanned {x : Double} (h : (Number.float x).IsScanned) :
    ∃ negative significand e, Double.ofParts? negative significand e = some x := by
  obtain ⟨parts, hparts⟩ := h
  have hfloat : ∀ {s : Nat} {e : Int},
      (Double.ofParts? parts.negative s e).map Number.float = some (.float x) →
        ∃ negative significand e, Double.ofParts? negative significand e = some x := by
    intro s e heq
    obtain ⟨y, hy, hx⟩ := Option.map_eq_some_iff.1 heq
    cases hx
    exact ⟨_, _, _, hy⟩
  unfold Numeral.value? at hparts
  dsimp only at hparts
  split at hparts
  · split at hparts
    · exact hfloat hparts
    · split at hparts
      · cases hparts
      · split at hparts
        · cases hparts
        · exact hfloat hparts
  · exact hfloat hparts

/-- A number that can be scanned can be written and scanned again. -/
theorem isReadable_of_isScanned {n : Number} (h : n.IsScanned) : n.IsReadable := by
  cases n with
  | integer i => exact isReadable_integer (isInteger64_of_isScanned h)
  | float x =>
    obtain ⟨_, _, _, hx⟩ := exists_ofParts?_of_isScanned h
    exact isReadable_float hx

/-- What a number is read as can be scanned. -/
theorem isScanned_reread {n : Number} (h : n.IsReadable) : n.reread.IsScanned := by
  have hscan := h.scan [] endsNumber_nil
  exact isScanned_scanNumeral hscan n.reread rfl

end Json

end Flowline
