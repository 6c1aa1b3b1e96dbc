import Mathlib.Tactic.NormNum
import Flowline.Decimal.Double
import Flowline.Proofs.Decimal.Ratio

/-!
# Rounding to a magnitude

What `Magnitude.nearest` gives is never above a power of two that the fraction is not above
(`value_nearest_le_zpow`), not below one if the fraction is not (`one_le_value_nearest`), and
relatively at most `2 ^ -53` above the fraction (`value_nearest_le_mul`). Binary64 holds it if the
fraction is below the half-way point behind the greatest number (`isFinite_nearest`).
-/

namespace Flowline.Decimal

open Ratio

namespace Magnitude

@[simp] theorem toRat_value (m : Magnitude) :
    m.value.toRat = m.significand * (2 : ℚ) ^ ((m.exponent : Int) - 1075) :=
  toRat_ofBinary _ _

theorem isProper_value (m : Magnitude) : m.value.IsProper := isProper_ofBinary _ _

/-- A zero has the least exponent. -/
def IsReduced (m : Magnitude) : Prop := m.significand = 0 → m.exponent = 1

theorem IsReduced.isFinite {m : Magnitude} (h : m.IsReduced) (hzero : m.significand = 0) :
    m.isFinite = true := by
  rw [Magnitude.isFinite, bits, hzero, h hzero]
  decide

/-- The least fraction that is rounded to something greater than every binary64 number: it lies
half-way between the greatest of them and the next power of two. -/
def overflow : ℚ := (2 ^ 54 - 1) * 2 ^ (970 : Int)

theorem zpow_lt_overflow : (2 : ℚ) ^ (64 : Int) < overflow := by
  calc (2 : ℚ) ^ (64 : Int) ≤ 1 * 2 ^ (970 : Int) := by
        rw [one_mul]
        exact zpow_le_zpow_right₀ one_le_two (by decide)
    _ < overflow := by
        unfold overflow
        gcongr
        norm_num

theorem overflow_lt : overflow < (2 : ℚ) ^ (1024 : Int) := by
  calc overflow < 2 ^ 54 * 2 ^ (970 : Int) := by
        unfold overflow
        gcongr
        norm_num
    _ = 2 ^ (1024 : Int) := by
        rw [← zpow_natCast, ← zpow_add₀ two_ne_zero]
        rfl

theorem nearest_of_num_eq_zero {y : Ratio} (hnum : y.num = 0) : nearest y = ⟨0, 1⟩ := if_pos hnum

section Nearest

variable {y : Ratio} (hy : y.IsProper)

include hy

/-- The significand before it is rounded, and the exponent. -/
theorem exists_nearest_eq (hnum : y.num ≠ 0) : ∃ (e : Nat) (s : Ratio),
    (e : Int) = max 1 (y.log2 + 1023) ∧ s.IsProper ∧
      s.toRat = y.toRat * 2 ^ (1075 - (e : Int)) ∧ nearest y = ⟨s.nearest, e⟩ := by
  refine ⟨(max 1 (y.log2 + 1023)).toNat,
    y.mul (ofBinary 1 (1075 - ((max 1 (y.log2 + 1023)).toNat : Int))), by omega,
    isProper_mul hy (isProper_ofBinary 1 _), ?_, ?_⟩
  · rw [toRat_mul, toRat_ofBinary, Nat.cast_one, one_mul]
  · rw [nearest, if_neg hnum]

theorem scaled_lt (hnum : y.num ≠ 0) {e : Nat} (he : (e : Int) = max 1 (y.log2 + 1023)) :
    y.toRat * 2 ^ (1075 - (e : Int)) < (2 : ℚ) ^ (53 : Int) := by
  calc y.toRat * 2 ^ (1075 - (e : Int)) < 2 ^ (y.log2 + 1) * 2 ^ (1075 - (e : Int)) := by
        gcongr
        exact lt_zpow_log2 hy hnum
    _ = 2 ^ (y.log2 + 1 + (1075 - (e : Int))) := (zpow_add₀ two_ne_zero ..).symm
    _ ≤ 2 ^ (53 : Int) := zpow_le_zpow_right₀ one_le_two (by omega)

theorem le_scaled (hnum : y.num ≠ 0) {e : Nat} (he : (e : Int) = y.log2 + 1023) :
    (2 : ℚ) ^ (52 : Int) ≤ y.toRat * 2 ^ (1075 - (e : Int)) := by
  calc (2 : ℚ) ^ (52 : Int) = 2 ^ (y.log2 + (1075 - (e : Int))) := by rw [he]; congr 1; omega
    _ = 2 ^ y.log2 * 2 ^ (1075 - (e : Int)) := zpow_add₀ two_ne_zero ..
    _ ≤ y.toRat * 2 ^ (1075 - (e : Int)) := by
        gcongr
        exact zpow_log2_le hy hnum

theorem isReduced_nearest : (nearest y).IsReduced := by
  intro hzero
  by_cases hnum : y.num = 0
  · rw [nearest_of_num_eq_zero hnum]
  · obtain ⟨e, s, he, hs, hscaled, heq⟩ := exists_nearest_eq hy hnum
    rw [heq] at hzero ⊢
    by_contra hne
    have hnormal : (e : Int) = y.log2 + 1023 := by
      have hne : e ≠ 1 := hne
      omega
    have hlow := le_scaled hy hnum hnormal
    have hround := le_nearest_add hs
    rw [hscaled, show s.nearest = 0 from hzero] at hround
    norm_num at hround hlow
    linarith

/-- Rounding does not pass a power of two. -/
theorem value_nearest_le_zpow {k : Int} (hk : -1074 ≤ k) (h : y.toRat ≤ 2 ^ k) :
    (nearest y).value.toRat ≤ 2 ^ k := by
  by_cases hnum : y.num = 0
  · rw [nearest_of_num_eq_zero hnum, toRat_value, Nat.cast_zero, zero_mul]
    positivity
  · obtain ⟨e, s, he, hs, hscaled, heq⟩ := exists_nearest_eq hy hnum
    have hlog : y.log2 ≤ k :=
      (zpow_le_zpow_iff_right₀ one_lt_two).1 ((zpow_log2_le hy hnum).trans h)
    obtain ⟨n, hn⟩ : ∃ n : Nat, k + (1075 - (e : Int)) = n := 
      Int.eq_ofNat_of_zero_le (by omega)
    have hle : s.toRat ≤ ((2 ^ n : Nat) : ℚ) := by
      calc s.toRat ≤ 2 ^ k * 2 ^ (1075 - (e : Int)) := by rw [hscaled]; gcongr
        _ = 2 ^ (k + (1075 - (e : Int))) := (zpow_add₀ two_ne_zero ..).symm
        _ = ((2 ^ n : Nat) : ℚ) := by rw [hn, zpow_natCast, Nat.cast_pow, Nat.cast_ofNat]
    have hround : s.nearest ≤ 2 ^ n := nearest_le_of_lt hs (by linarith)
    rw [heq, toRat_value]
    calc (s.nearest : ℚ) * 2 ^ ((e : Int) - 1075)
        ≤ ((2 ^ n : Nat) : ℚ) * 2 ^ ((e : Int) - 1075) := by gcongr
      _ = 2 ^ (n : Int) * 2 ^ ((e : Int) - 1075) := by
          rw [zpow_natCast, Nat.cast_pow, Nat.cast_ofNat]
      _ = 2 ^ ((n : Int) + ((e : Int) - 1075)) := (zpow_add₀ two_ne_zero ..).symm
      _ = 2 ^ k := by congr 1; omega

section Normal

variable (hone : 1 ≤ y.toRat)

include hone

theorem log2_nonneg : y.num ≠ 0 ∧ 0 ≤ y.log2 := by
  have hnum : y.num ≠ 0 := by
    rw [ne_eq, num_eq_zero_iff hy]
    linarith
  have hlt : (2 : ℚ) ^ (0 : Int) < 2 ^ (y.log2 + 1) := by
    rw [zpow_zero]
    exact hone.trans_lt (lt_zpow_log2 hy hnum)
  exact ⟨hnum, Int.lt_add_one_iff.1 ((zpow_lt_zpow_iff_right₀ one_lt_two).1 hlt)⟩

theorem one_le_value_nearest : 1 ≤ (nearest y).value.toRat := by
  obtain ⟨hnum, hlog⟩ := log2_nonneg hy hone
  obtain ⟨e, s, he, hs, hscaled, heq⟩ := exists_nearest_eq hy hnum
  have hlow : ((2 ^ 52 : Nat) : ℚ) ≤ s.toRat := by
    have := le_scaled hy hnum (e := e) (by omega)
    rw [hscaled]
    exact_mod_cast this
  have hround := le_nearest_of_le hs hlow
  rw [heq, toRat_value]
  calc (1 : ℚ) = 2 ^ (52 : Int) * 2 ^ (-52 : Int) := by norm_num
    _ ≤ (s.nearest : ℚ) * 2 ^ ((e : Int) - 1075) := by
        gcongr
        · exact_mod_cast hround
        · exact one_le_two
        · omega

/-- Rounding adds at most one half of the last place. -/
theorem value_nearest_le_mul : (nearest y).value.toRat ≤ y.toRat * (1 + 1 / 2 ^ 53) := by
  obtain ⟨hnum, hlog⟩ := log2_nonneg hy hone
  obtain ⟨e, s, he, hs, hscaled, heq⟩ := exists_nearest_eq hy hnum
  have hround := nearest_le hs
  have hcancel : (2 : ℚ) ^ (1075 - (e : Int)) * 2 ^ ((e : Int) - 1075) = 1 := by
    rw [← zpow_add₀ two_ne_zero, sub_add_sub_cancel, sub_self, zpow_zero]
  have hplace : (2 : ℚ) ^ ((e : Int) - 1075) = 2 ^ y.log2 * (1 / 2 ^ 52) := by
    rw [show (e : Int) - 1075 = y.log2 + -52 by omega, zpow_add₀ two_ne_zero]
    norm_num
  rw [heq, toRat_value]
  calc (s.nearest : ℚ) * 2 ^ ((e : Int) - 1075)
      ≤ (y.toRat * 2 ^ (1075 - (e : Int)) + 1 / 2) * 2 ^ ((e : Int) - 1075) := by
        rw [← hscaled]
        gcongr
    _ = y.toRat + 2 ^ y.log2 * (1 / 2 ^ 53) := by
        rw [add_mul, mul_assoc, hcancel, hplace]
        ring
    _ ≤ y.toRat + y.toRat * (1 / 2 ^ 53) := by
        gcongr
        exact zpow_log2_le hy hnum
    _ = y.toRat * (1 + 1 / 2 ^ 53) := by ring

end Normal

/-- What is below the half-way point behind the greatest number is rounded to a number. -/
theorem isFinite_nearest (h : y.toRat < overflow) : (nearest y).isFinite = true := by
  rw [isFinite, decide_eq_true_eq, bits]
  by_cases hnum : y.num = 0
  · rw [nearest_of_num_eq_zero hnum]
    decide
  · obtain ⟨e, s, he, hs, hscaled, heq⟩ := exists_nearest_eq hy hnum
    have hlog : y.log2 < 1024 := (zpow_lt_zpow_iff_right₀ one_lt_two).1
      (((zpow_log2_le hy hnum).trans_lt h).trans overflow_lt)
    rw [heq]
    dsimp only
    -- Only in the last binade can the significand be rounded up to the next exponent.
    by_cases htop : e = 2046
    · subst htop
      have hlt : s.toRat < ((2 ^ 53 - 1 : Nat) : ℚ) + 1 / 2 := by
        calc s.toRat < overflow * 2 ^ (1075 - ((2046 : Nat) : Int)) := by rw [hscaled]; gcongr
          _ = (2 ^ 54 - 1) * 2 ^ (-1 : Int) := by
            unfold overflow
            rw [mul_assoc, ← zpow_add₀ two_ne_zero]
            rfl
          _ = ((2 ^ 53 - 1 : Nat) : ℚ) + 1 / 2 := by norm_num
      have hround := nearest_le_of_lt hs hlt
      omega
    · have hlt : s.toRat < ((2 ^ 53 : Nat) : ℚ) + 1 / 2 := by
        calc s.toRat < 2 ^ (53 : Int) := by rw [hscaled]; exact scaled_lt hy hnum he
          _ < ((2 ^ 53 : Nat) : ℚ) + 1 / 2 := by norm_num
      have hround := nearest_le_of_lt hs hlt
      omega

end Nearest

end Magnitude

end Flowline.Decimal
