import Mathlib.Data.Nat.Cast.Order.Field
import Flowline.Decimal.Shortest
import Flowline.Proofs.Decimal.Ratio

/-!
# What the shortest decimal is like

The shortest decimal of a number has at most seventeen digits, lies in the interval of the decimals
that read back, and has no exponent if it is zero (`fits_shortest`). Stripping zeros changes neither
its value nor that (`Scientific.Fits.stripZeros`).
-/

namespace Flowline.Decimal

open Ratio

namespace Scientific

/-- The rational number. -/
def toRat (d : Scientific) : ℚ := d.digits * (10 : ℚ) ^ d.exponent

/-- A decimal of at most seventeen digits that is not above a bound. -/
structure Fits (d : Scientific) (bound : ℚ) : Prop where
  digits : d.digits ≤ 10 ^ 17
  value : d.toRat ≤ bound
  zero : d.digits = 0 → d.exponent = 0

theorem Fits.stripZeros {d : Scientific} {bound : ℚ} (h : d.Fits bound) (fuel : Nat) :
    (d.stripZeros fuel).Fits bound := by
  induction fuel generalizing d with
  | zero => exact h
  | succ fuel ih =>
    rw [Scientific.stripZeros]
    split
    · next hzeros =>
      obtain ⟨hne, hlast⟩ := hzeros
      have hdigits : d.digits = d.digits / 10 * 10 := by omega
      refine ih ⟨Nat.le_trans (Nat.div_le_self _ _) h.digits, ?_, fun hzero => ?_⟩
      · refine le_of_eq_of_le ?_ h.value
        rw [toRat, toRat, zpow_add_one₀ (by norm_num)]
        nth_rewrite 2 [hdigits]
        push_cast
        ring
      · have hnone : d.digits / 10 = 0 := hzero
        omega
    · exact h

end Scientific

/-! ## The grid -/

theorem lt_leadingExponent {x : Ratio} (hx : x.IsProper) {fuel : Nat} {e : Int}
    (h : x.toRat < 10 ^ (e + 1)) : x.toRat < 10 ^ (leadingExponent x fuel e + 1) := by
  -- The search goes down only while the fraction is below the power, so the bound goes with it.
  induction fuel generalizing e with
  | zero => exact h
  | succ fuel ih =>
    rw [leadingExponent]
    split
    · exact h
    · next hle =>
      refine ih ?_
      rwa [le_iff (isProper_ofDecimal 1 e) hx, toRat_ofDecimal, Nat.cast_one, one_mul, not_le,
        ← sub_add_cancel e 1] at hle

/-- What the grid gives is one of the two neighbours and lies in the interval. -/
theorem onGrid?_spec {i : Interval} {x : Ratio} {e : Int} {d : Scientific}
    (h : onGrid? i x e = some d) : d.exponent = e ∧ d.digits ≠ 0 ∧
      i.contains (ofDecimal d.digits e) = true ∧
        d.digits ≤ x.num * (ofDecimal 1 e).den / (x.den * (ofDecimal 1 e).num) + 1 := by
  unfold onGrid? at h
  dsimp only at h
  generalize x.num * (ofDecimal 1 e).den / (x.den * (ofDecimal 1 e).num) = below at h ⊢
  have hlower : ∀ {b : Bool}, (i.contains (ofDecimal below e) && decide (below ≠ 0)) = true →
      i.contains (ofDecimal below e) = true ∧ below ≠ 0 := by simp
  split at h
  · next hl hu =>
    obtain ⟨hl, hne⟩ := hlower (b := true) hl
    split at h
    · cases h
      exact ⟨rfl, hne, hl, Nat.le_succ _⟩
    · split at h
      · cases h
        exact ⟨rfl, Nat.succ_ne_zero _, hu, Nat.le_refl _⟩
      · cases h
        dsimp only
        split
        · exact ⟨rfl, hne, hl, Nat.le_succ _⟩
        · exact ⟨rfl, Nat.succ_ne_zero _, hu, Nat.le_refl _⟩
  · next hl _ =>
    obtain ⟨hl, hne⟩ := hlower (b := true) hl
    cases h
    exact ⟨rfl, hne, hl, Nat.le_succ _⟩
  · next _ hu =>
    cases h
    exact ⟨rfl, Nat.succ_ne_zero _, hu, Nat.le_refl _⟩
  · cases h

/-- The neighbours of a fraction on a grid have as many digits as there are places above it. -/
theorem neighbour_le {x : Ratio} {e : Int} {n : Nat} (h : x.toRat < 10 ^ (e + n)) :
    x.num * (ofDecimal 1 e).den / (x.den * (ofDecimal 1 e).num) + 1 ≤ 10 ^ n := by
  have hdiv : ((x.num * (ofDecimal 1 e).den / (x.den * (ofDecimal 1 e).num) : Nat) : ℚ) ≤
      (x.div (ofDecimal 1 e)).toRat := Nat.cast_div_le
  have hlt : (x.div (ofDecimal 1 e)).toRat < ((10 ^ n : Nat) : ℚ) := by
    rw [toRat_div, toRat_ofDecimal, Nat.cast_one, one_mul, div_lt_iff₀ (by positivity)]
    rw [zpow_add₀ (by norm_num), mul_comm, zpow_natCast] at h
    exact_mod_cast h
  exact Nat.succ_le_of_lt (Nat.cast_lt.1 (hdiv.trans_lt hlt))

theorem Interval.le_high {i : Interval} {x : Ratio} (hx : x.IsProper) (hi : i.high.IsProper)
    (h : i.contains x = true) : x.toRat ≤ i.high.toRat := by
  unfold Interval.contains at h
  split at h
  · exact (le_iff hx hi).1 (Bool.and_eq_true_iff.1 h).2
  · exact ((lt_iff hx hi).1 (Bool.and_eq_true_iff.1 h).2).le

/-! ## The shortest decimal -/

/-- The half-way point to the next number. -/
def halfway (m q : Nat) : ℚ := (2 * m + 1) * 2 ^ ((q : Int) - 1076)

/-- No double has a digit above the place at which the search for the first one begins. -/
theorem toRat_ofBinary_lt {m q : Nat} (hm : m < 2 ^ 53) (hq : q < 2047) :
    (ofBinary m ((q : Int) - 1075)).toRat < 10 ^ ((309 : Int) + 1) := by
  rw [toRat_ofBinary]
  calc (m : ℚ) * 2 ^ ((q : Int) - 1075) ≤ 2 ^ (53 : Int) * 2 ^ (971 : Int) := by
        gcongr
        · exact_mod_cast hm.le
        · exact one_le_two
        · omega
    _ = ((2 ^ 1024 : Nat) : ℚ) := by
        rw [← zpow_add₀ two_ne_zero, Nat.cast_pow, ← zpow_natCast]
        rfl
    _ < ((10 ^ 310 : Nat) : ℚ) := Nat.cast_lt.2 (by decide +kernel)
    _ = 10 ^ ((309 : Int) + 1) := by
        rw [Nat.cast_pow, ← zpow_natCast]
        rfl

theorem fits_shortest {m q : Nat} (hm : m < 2 ^ 53) (hq : q < 2047) :
    (shortest m q).Fits (halfway m q) := by
  have hlead : (ofBinary m ((q : Int) - 1075)).toRat <
      10 ^ (leadingExponent (ofBinary m ((q : Int) - 1075)) 640 309 + 1) :=
    lt_leadingExponent (isProper_ofBinary m _) (toRat_ofBinary_lt hm hq)
  rw [shortest]
  cases hfound : (List.range 17).findSome? fun (n : Nat) =>
      onGrid? (Interval.around m q) (ofBinary m ((q : Int) - 1075))
        (leadingExponent (ofBinary m ((q : Int) - 1075)) 640 309 - n) with
  | none =>
    refine ⟨Nat.zero_le _, ?_, fun _ => rfl⟩
    simp only [Option.getD_none, Scientific.toRat, Nat.cast_zero, zero_mul, halfway]
    positivity
  | some d =>
    obtain ⟨n, hn, hgrid⟩ := List.exists_of_findSome?_eq_some hfound
    obtain ⟨hexponent, hne, hcontains, hdigits⟩ := onGrid?_spec hgrid
    refine ⟨?_, ?_, fun hzero => absurd hzero hne⟩
    · refine hdigits.trans ((neighbour_le (n := n + 1) ?_).trans ?_)
      · convert hlead using 2
        push_cast
        ring
      · exact Nat.pow_le_pow_right (by decide) (List.mem_range.1 hn)
    · have hle := Interval.le_high (isProper_ofDecimal _ _) (isProper_ofBinary _ _) hcontains
      rw [toRat_ofDecimal, ← hexponent, Interval.around, toRat_ofBinary] at hle
      simpa [Scientific.toRat, halfway] using hle

end Flowline.Decimal
