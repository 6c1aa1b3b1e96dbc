import Flowline.Proofs.Decimal.Rounding

/-!
# Decimals that binary64 holds

A decimal significand with an exponent stands for a number if it is scaled down
(`exists_ofParts?_of_neg`), and if it is scaled up and stays below the overflow by as much as the
roundings of its two steps can add (`exists_ofParts?_of_lt`). Such a number has a significand of 53
bits (`significand_lt`) and an exponent that is not that of an infinity
(`exponent_lt_of_ofParts?`).
-/

namespace Flowline.Decimal

open Ratio

namespace Double

/-! ## Scaling -/

section Scaling

variable {x : Magnitude}

theorem one_le_powerOfTen (k : Nat) : 1 ≤ (powerOfTen k).value.toRat := by
  refine Magnitude.one_le_value_nearest (isProper_nat _) ?_
  rw [toRat_nat, Nat.pow_eq, Nat.cast_pow]
  exact one_le_pow₀ (by norm_num)

theorem num_powerOfTen_pos (k : Nat) : 0 < (powerOfTen k).value.num :=
  (num_pos_iff (Magnitude.isProper_value _)).2 (one_pos.trans_le (one_le_powerOfTen k))

theorem toRat_div_powerOfTen_le (k : Nat) (h : x.value.toRat ≤ 2 ^ (64 : Int)) :
    (x.value.div (powerOfTen k).value).toRat ≤ 2 ^ (64 : Int) := by
  rw [toRat_div]
  exact (div_le_self (toRat_nonneg _) (one_le_powerOfTen k)).trans h

theorem isProper_div_powerOfTen (x : Magnitude) (k : Nat) :
    (x.value.div (powerOfTen k).value).IsProper :=
  isProper_div (Magnitude.isProper_value x) (num_powerOfTen_pos k)

theorem exists_scaleBy_of_neg {fuel : Nat} {e : Int} (he : e < 0)
    (hfuel : e.natAbs / greatestPower < fuel) (hx : x.value.toRat ≤ 2 ^ (64 : Int)) :
    ∃ m, scaleBy fuel x e = some m := by
  -- The invariant is that the magnitude is at most `2 ^ 64`, far below the overflow.
  induction fuel generalizing x e with
  | zero => cases hfuel
  | succ fuel ih =>
    have hproper := isProper_div_powerOfTen x
    rw [scaleBy]
    by_cases hstep : e.natAbs ≤ greatestPower
    · have hfinite := Magnitude.isFinite_nearest (hproper e.natAbs)
        ((toRat_div_powerOfTen_le _ hx).trans_lt Magnitude.zpow_lt_overflow)
      simp only [hstep, Int.not_le.2 he, if_true, if_false, Magnitude.finite?, hfinite]
      exact ⟨_, rfl⟩
    · by_cases hzero : x.significand = 0
      · simp only [hstep, hzero, Int.not_le.2 he, if_true, if_false]
        exact ⟨x, rfl⟩
      · simp only [hstep, hzero, Int.not_le.2 he, if_false]
        have hless : (e + greatestPower).natAbs / greatestPower < fuel := by
          rw [greatestPower] at hfuel hstep ⊢
          omega
        have hneg : e + greatestPower < 0 := by
          rw [greatestPower] at hstep ⊢
          omega
        refine ih hneg hless ?_
        exact Magnitude.value_nearest_le_zpow (hproper _) (by decide) (toRat_div_powerOfTen_le _ hx)

/-- Only numbers that binary64 holds are given. -/
theorem isFinite_of_scaleBy {fuel : Nat} {e : Int} {m : Magnitude}
    (h : scaleBy fuel x e = some m) (hreduced : x.IsReduced) : m.isFinite = true := by
  have hfinite : ∀ y : Magnitude, y.finite? = some m → m.isFinite = true := by
    intro y hy
    unfold Magnitude.finite? at hy
    split at hy
    · next hy' =>
      cases hy
      exact hy'
    · cases hy
  induction fuel generalizing x e with
  | zero => cases h
  | succ fuel ih =>
    rw [scaleBy] at h
    split at h
    · split at h
      · exact hfinite _ h
      · exact hfinite _ h
    · split at h
      · next hzero =>
        cases h
        exact hreduced.isFinite hzero
      · split at h
        · cases h
        · exact ih h (Magnitude.isReduced_nearest (isProper_div_powerOfTen x _))

end Scaling

/-! ## From decimal parts -/

section Parts

variable {significand : Nat}

theorem exists_ofParts?_of_neg (negative : Bool) (hsignificand : significand ≤ 2 ^ 64) {e : Int}
    (he : e < 0) : ∃ x, ofParts? negative significand e = some x := by
  have hle : (Ratio.mk significand 1).toRat ≤ 2 ^ (64 : Int) := by
    rw [toRat_nat]
    exact_mod_cast hsignificand
  obtain ⟨m, hm⟩ := exists_scaleBy_of_neg he
    (show e.natAbs / greatestPower < e.natAbs / greatestPower + 2 by omega)
    (Magnitude.value_nearest_le_zpow (isProper_nat significand) (by decide) hle)
  exact ⟨_, by rw [ofParts?, hm]; rfl⟩

/-- The significand and the power of ten are each rounded, and their product is rounded again. -/
theorem exists_ofParts?_of_lt (negative : Bool) (hpos : 0 < significand) {e : Nat}
    (he : e ≤ greatestPower)
    (h : (significand : ℚ) * 10 ^ e * (1 + 1 / 2 ^ 53) ^ 2 < Magnitude.overflow) :
    ∃ x, ofParts? negative significand e = some x := by
  have hsignificand := Magnitude.value_nearest_le_mul (isProper_nat significand)
    (by rw [toRat_nat]; exact_mod_cast hpos)
  have hpower : (powerOfTen e).value.toRat ≤ 10 ^ e * (1 + 1 / 2 ^ 53) := by
    have hone : (1 : ℚ) ≤ (Ratio.mk (Nat.pow 10 e) 1).toRat := by
      rw [toRat_nat, Nat.pow_eq, Nat.cast_pow]
      exact one_le_pow₀ (by norm_num)
    have hmul := Magnitude.value_nearest_le_mul (isProper_nat (Nat.pow 10 e)) hone
    rwa [toRat_nat, Nat.pow_eq, Nat.cast_pow, Nat.cast_ofNat] at hmul
  rw [toRat_nat] at hsignificand
  have hlt : ((Magnitude.nearest ⟨significand, 1⟩).value.mul (powerOfTen e).value).toRat <
      Magnitude.overflow := by
    rw [toRat_mul]
    calc (Magnitude.nearest ⟨significand, 1⟩).value.toRat * (powerOfTen e).value.toRat
        ≤ significand * (1 + 1 / 2 ^ 53) * (10 ^ e * (1 + 1 / 2 ^ 53)) := by
          gcongr
          exact toRat_nonneg _
      _ = significand * 10 ^ e * (1 + 1 / 2 ^ 53) ^ 2 := by ring
      _ < Magnitude.overflow := h
  have hfinite := Magnitude.isFinite_nearest
    (isProper_mul (Magnitude.isProper_value _) (Magnitude.isProper_value _)) hlt
  rw [ofParts?, scaleBy]
  simp only [Int.natAbs_natCast, he, Int.natCast_nonneg, if_true, Magnitude.finite?, hfinite]
  exact ⟨_, rfl⟩

end Parts

/-! ## The bits of a number -/

theorem exponentBits_eq (x : Double) : x.exponentBits = x.bits.toNat / 2 ^ 52 % 2 ^ 11 := by
  rw [exponentBits, UInt64.toNat_and, UInt64.toNat_shiftRight]
  exact (Nat.and_two_pow_sub_one_eq_mod _ 11).trans
    (congrArg (· % 2 ^ 11) (Nat.shiftRight_eq_div_pow _ 52))

theorem fractionBits_lt (x : Double) : x.fractionBits < 2 ^ 52 := by
  rw [fractionBits, UInt64.toNat_and]
  exact (Nat.and_two_pow_sub_one_eq_mod x.bits.toNat 52).trans_lt (Nat.mod_lt _ (by decide))

theorem significand_lt (x : Double) : x.significand < 2 ^ 53 := by
  have hfraction := x.fractionBits_lt
  unfold significand
  split <;> omega

/-- A number that decimal parts stand for is not infinite. -/
theorem exponent_lt_of_ofParts? {negative : Bool} {significand : Nat} {e : Int} {x : Double}
    (h : ofParts? negative significand e = some x) : x.exponent < 2047 := by
  obtain ⟨m, hm, rfl⟩ := Option.map_eq_some_iff.1 h
  have hfinite := isFinite_of_scaleBy hm (Magnitude.isReduced_nearest (isProper_nat significand))
  rw [Magnitude.isFinite, decide_eq_true_eq] at hfinite
  rw [exponent, exponentBits_eq, ofMagnitude, UInt64.toNat_ofNat']
  cases negative with
  | true =>
    simp only [if_true]
    omega
  | false =>
    simp only [Bool.false_eq_true, if_false]
    omega

end Double

end Flowline.Decimal
