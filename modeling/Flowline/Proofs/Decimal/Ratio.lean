import Mathlib.Algebra.Order.Field.Power
import Mathlib.Algebra.Order.Ring.Rat
import Mathlib.Tactic.FieldSimp
import Mathlib.Tactic.GCongr
import Mathlib.Tactic.Linarith
import Mathlib.Tactic.Positivity
import Mathlib.Tactic.Ring
import Flowline.Decimal.Ratio

/-!
# Fractions as rational numbers

The value of a `Ratio` is a rational number, and its operations are those on rational numbers.
`nearest` is at most one half away from above (`nearest_le`) and never passes an integer
(`le_nearest_of_le`); `log2` is the exponent of the binade (`zpow_log2_le`, `lt_zpow_log2`).
-/

namespace Flowline.Decimal.Ratio

/-- The rational number. -/
def toRat (x : Ratio) : ℚ := x.num / x.den

variable {x y : Ratio}

theorem toRat_nonneg (x : Ratio) : 0 ≤ x.toRat := by
  unfold toRat
  positivity

@[simp] theorem toRat_mul (x y : Ratio) : (x.mul y).toRat = x.toRat * y.toRat := by
  simp only [toRat, mul, Nat.cast_mul]
  exact (div_mul_div_comm ..).symm

@[simp] theorem toRat_div (x y : Ratio) : (x.div y).toRat = x.toRat / y.toRat := by
  simp only [toRat, div, Nat.cast_mul]
  exact (div_div_div_eq ..).symm

@[simp] theorem toRat_nat (n : Nat) : (Ratio.mk n 1).toRat = n := by simp [toRat]

/-- A number times a power, as it is made in either direction. -/
theorem toRat_scaled (b n : Nat) (e : Int) :
    (if 0 ≤ e then (⟨n * Nat.pow b e.toNat, 1⟩ : Ratio) else ⟨n, Nat.pow b e.natAbs⟩).toRat =
      n * (b : ℚ) ^ e := by
  split
  · next h =>
    obtain ⟨k, rfl⟩ := Int.eq_ofNat_of_zero_le h
    simp [toRat]
  · next h =>
    obtain ⟨k, rfl⟩ : ∃ k : Nat, e = -k := ⟨e.natAbs, by omega⟩
    simp [toRat, div_eq_mul_inv]

@[simp] theorem toRat_ofDecimal (n : Nat) (e : Int) : (ofDecimal n e).toRat = n * (10 : ℚ) ^ e :=
  toRat_scaled 10 n e

@[simp] theorem toRat_ofBinary (n : Nat) (e : Int) : (ofBinary n e).toRat = n * (2 : ℚ) ^ e :=
  toRat_scaled 2 n e

/-- A fraction whose denominator is not zero. -/
def IsProper (x : Ratio) : Prop := 0 < x.den

theorem isProper_nat (n : Nat) : (Ratio.mk n 1).IsProper := Nat.one_pos

theorem isProper_scaled {b : Nat} (hb : 0 < b) (n : Nat) (e : Int) :
    (if 0 ≤ e then (⟨n * Nat.pow b e.toNat, 1⟩ : Ratio) else ⟨n, Nat.pow b e.natAbs⟩).IsProper := by
  split
  · exact Nat.one_pos
  · exact Nat.pow_pos hb

theorem isProper_ofDecimal (n : Nat) (e : Int) : (ofDecimal n e).IsProper :=
  isProper_scaled (by decide) n e

theorem isProper_ofBinary (n : Nat) (e : Int) : (ofBinary n e).IsProper :=
  isProper_scaled (by decide) n e

theorem isProper_mul (hx : x.IsProper) (hy : y.IsProper) : (x.mul y).IsProper :=
  Nat.mul_pos hx hy

theorem isProper_div (hx : x.IsProper) (hy : 0 < y.num) : (x.div y).IsProper :=
  Nat.mul_pos hx hy

theorem num_eq_zero_iff (hx : x.IsProper) : x.num = 0 ↔ x.toRat = 0 := by
  have hden : (x.den : ℚ) ≠ 0 := Nat.cast_ne_zero.2 hx.ne'
  rw [toRat, div_eq_zero_iff, or_iff_left hden, Nat.cast_eq_zero]

theorem num_pos_iff (hx : x.IsProper) : 0 < x.num ↔ 0 < x.toRat := by
  rw [Nat.pos_iff_ne_zero, ne_eq, num_eq_zero_iff hx, (toRat_nonneg x).lt_iff_ne', ne_eq]

theorem le_iff (hx : x.IsProper) (hy : y.IsProper) : x.le y = true ↔ x.toRat ≤ y.toRat := by
  rw [le, decide_eq_true_eq, toRat, toRat,
    div_le_div_iff₀ (Nat.cast_pos.2 hx) (Nat.cast_pos.2 hy)]
  exact_mod_cast Iff.rfl

theorem lt_iff (hx : x.IsProper) (hy : y.IsProper) : x.lt y = true ↔ x.toRat < y.toRat := by
  rw [lt, decide_eq_true_eq, toRat, toRat,
    div_lt_div_iff₀ (Nat.cast_pos.2 hx) (Nat.cast_pos.2 hy)]
  exact_mod_cast Iff.rfl

/-! ## Rounding -/

/-- Rounding goes up by one half at most. -/
theorem nearest_le (hx : x.IsProper) : (x.nearest : ℚ) ≤ x.toRat + 1 / 2 := by
  have hden : (0 : ℚ) < x.den := Nat.cast_pos.2 hx
  rw [toRat, div_add_div _ _ hden.ne' two_ne_zero, le_div_iff₀ (by positivity)]
  have hdiv := Nat.div_add_mod x.num x.den
  have hround : x.nearest * (x.den * 2) ≤ x.num * 2 + x.den := by
    unfold nearest
    dsimp only
    split
    · nlinarith [Nat.zero_le (x.num % x.den)]
    · next h =>
      have hrest : x.den ≤ 2 * (x.num % x.den) := by
        by_contra hlt
        exact h (.inl (Nat.not_le.1 hlt))
      nlinarith
  rw [mul_one]
  exact_mod_cast hround

/-- Rounding goes down by one half at most. -/
theorem le_nearest_add (hx : x.IsProper) : x.toRat ≤ (x.nearest : ℚ) + 1 / 2 := by
  have hden : (0 : ℚ) < x.den := Nat.cast_pos.2 hx
  rw [toRat, div_le_iff₀ hden]
  have hdiv := Nat.div_add_mod x.num x.den
  have hmod := Nat.mod_lt x.num hx
  have hround : x.num * 2 ≤ x.nearest * 2 * x.den + x.den := by
    unfold nearest
    dsimp only
    split
    · next h =>
      have hrest : 2 * (x.num % x.den) ≤ x.den := by
        rcases h with h | h
        · exact h.le
        · exact h.1.le
      nlinarith
    · nlinarith
  have hcast : (x.num : ℚ) * 2 ≤ x.nearest * 2 * x.den + x.den := by exact_mod_cast hround
  linarith

/-- What is less than half-way above an integer is not rounded above it. -/
theorem nearest_le_of_lt (hx : x.IsProper) {n : Nat} (h : x.toRat < n + 1 / 2) : x.nearest ≤ n := by
  have hround := nearest_le hx
  have hlt : (x.nearest : ℚ) < ((n + 1 : Nat) : ℚ) := by
    push_cast
    linarith
  exact Nat.lt_succ_iff.1 (Nat.cast_lt.1 hlt)

/-- What is not below an integer is not rounded below it. -/
theorem le_nearest_of_le (hx : x.IsProper) {n : Nat} (h : (n : ℚ) ≤ x.toRat) : n ≤ x.nearest := by
  have hround := le_nearest_add hx
  have hlt : (n : ℚ) < ((x.nearest + 1 : Nat) : ℚ) := by
    push_cast
    linarith
  exact Nat.lt_succ_iff.1 (Nat.cast_lt.1 hlt)

/-! ## Powers of two -/

section Log2

variable (hx : x.IsProper) (hnum : x.num ≠ 0)

include hx hnum

/-- The difference of the logarithms is the binade or the one above it. -/
theorem mem_binades :
    (2 : ℚ) ^ ((x.num.log2 : Int) - x.den.log2 - 1) ≤ x.toRat ∧
      x.toRat < 2 ^ ((x.num.log2 : Int) - x.den.log2 + 1) := by
  have hden : (0 : ℚ) < x.den := Nat.cast_pos.2 hx
  have hnumLow : (2 : ℚ) ^ x.num.log2 ≤ x.num := by exact_mod_cast Nat.log2_self_le hnum
  have hnumHigh : (x.num : ℚ) < 2 ^ (x.num.log2 + 1) := by exact_mod_cast Nat.lt_log2_self
  have hdenLow : (2 : ℚ) ^ x.den.log2 ≤ x.den := by exact_mod_cast Nat.log2_self_le hx.ne'
  have hdenHigh : (x.den : ℚ) < 2 ^ (x.den.log2 + 1) := by exact_mod_cast Nat.lt_log2_self
  have htwo : (2 : ℚ) ≠ 0 := two_ne_zero
  constructor
  · have hpow : (2 : ℚ) ^ ((x.num.log2 : Int) - x.den.log2 - 1) =
        2 ^ x.num.log2 / 2 ^ (x.den.log2 + 1) := by
      rw [sub_sub, zpow_sub₀ htwo]
      norm_cast
    rw [hpow, toRat]
    exact div_le_div₀ (by positivity) hnumLow hden hdenHigh.le
  · have hpow : (2 : ℚ) ^ ((x.num.log2 : Int) - x.den.log2 + 1) =
        2 ^ (x.num.log2 + 1) / 2 ^ x.den.log2 := by
      rw [sub_add_eq_add_sub, zpow_sub₀ htwo]
      norm_cast
    rw [hpow, toRat, div_lt_div_iff₀ hden (by positivity)]
    calc (x.num : ℚ) * 2 ^ x.den.log2 < 2 ^ (x.num.log2 + 1) * 2 ^ x.den.log2 := by gcongr
      _ ≤ 2 ^ (x.num.log2 + 1) * x.den := by gcongr

theorem zpow_log2_le : (2 : ℚ) ^ x.log2 ≤ x.toRat := by
  unfold log2
  dsimp only
  split
  · next h =>
    rwa [le_iff (isProper_ofBinary _ _) hx, toRat_ofBinary, Nat.cast_one, one_mul] at h
  · exact (mem_binades hx hnum).1

theorem lt_zpow_log2 : x.toRat < (2 : ℚ) ^ (x.log2 + 1) := by
  unfold log2
  dsimp only
  split
  · exact (mem_binades hx hnum).2
  · next h =>
    rwa [le_iff (isProper_ofBinary _ _) hx, toRat_ofBinary, Nat.cast_one, one_mul, not_le,
      ← sub_add_cancel ((x.num.log2 : Int) - x.den.log2) 1] at h

end Log2

end Flowline.Decimal.Ratio
