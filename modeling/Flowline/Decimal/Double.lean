import Flowline.Decimal.Ratio

/-!
# Floating-point numbers

A `Double` is a number of IEEE 754 binary64 given by its bits, so that two of them are equal only
if they are the same number with the same sign. It never holds a NaN here: numbers come from
decimal text, and text whose value is not finite is refused.

Arithmetic is exact and then rounded: a `Magnitude` is a significand of 53 bits with an exponent,
and `Magnitude.nearest` is the one nearest to a fraction.
-/

namespace Flowline.Decimal

/-! ## Magnitudes -/

/-- `significand · 2 ^ (exponent - 1075)`, where the exponent is at least one. A significand of
`2 ^ 53` means the least one of the next exponent. -/
structure Magnitude where
  significand : Nat
  exponent : Nat

namespace Magnitude

/-- The exact value. -/
def value (m : Magnitude) : Ratio := Ratio.ofBinary m.significand ((m.exponent : Int) - 1075)

/-- The magnitude nearest to a fraction, and the one with an even significand if two are equally
near. It may be greater than any that binary64 holds. -/
def nearest (x : Ratio) : Magnitude :=
  if x.num = 0 then ⟨0, 1⟩
  else
    let exponent := (max 1 (x.log2 + 1023)).toNat
    ⟨(x.mul (Ratio.ofBinary 1 (1075 - (exponent : Int)))).nearest, exponent⟩

/-- The bits of the exponent and the significand. Those of a greater magnitude are greater. -/
def bits (m : Magnitude) : Nat := (m.exponent - 1) * 0x10000000000000 + m.significand

/-- Whether binary64 holds the magnitude. -/
def isFinite (m : Magnitude) : Bool := m.bits < 0x7FF0000000000000

/-- The magnitude, if binary64 holds it. -/
def finite? (m : Magnitude) : Option Magnitude := if m.isFinite then some m else none

end Magnitude

/-- A binary64 number. -/
structure Double where
  bits : UInt64
deriving DecidableEq, Inhabited

namespace Double

def isNegative (x : Double) : Bool := x.bits >>> 63 = 1

/-- The bits of the exponent. -/
def exponentBits (x : Double) : Nat := ((x.bits >>> 52) &&& 0x7FF).toNat

/-- The bits of the fraction. -/
def fractionBits (x : Double) : Nat := (x.bits &&& 0xFFFFFFFFFFFFF).toNat

def isFinite (x : Double) : Bool := x.exponentBits ≠ 0x7FF

/-- The significand `m` of the magnitude `m · 2 ^ (q - 1075)`. -/
def significand (x : Double) : Nat :=
  if x.exponentBits = 0 then x.fractionBits else x.fractionBits + 0x10000000000000

/-- The exponent `q` of the magnitude `m · 2 ^ (q - 1075)`. -/
def exponent (x : Double) : Nat := max 1 x.exponentBits

/-- The number with a sign and a magnitude. -/
def ofMagnitude (negative : Bool) (m : Magnitude) : Double :=
  ⟨UInt64.ofNat (m.bits + if negative then 0x8000000000000000 else 0)⟩

/-! ## From decimal parts -/

/-- The greatest exponent of ten that binary64 holds. -/
def greatestPower : Nat := 308

/-- The magnitude nearest to a power of ten. -/
def powerOfTen (k : Nat) : Magnitude := Magnitude.nearest ⟨Nat.pow 10 k, 1⟩

/-- `x · 10 ^ e` in steps of at most the greatest power, each step rounded; nothing if the result
is not finite. Steps downwards stop at zero. -/
def scaleBy : Nat → Magnitude → Int → Option Magnitude
  | 0, _, _ => none
  | fuel + 1, x, e =>
    if e.natAbs ≤ greatestPower then
      if 0 ≤ e then (Magnitude.nearest (x.value.mul (powerOfTen e.natAbs).value)).finite?
      else (Magnitude.nearest (x.value.div (powerOfTen e.natAbs).value)).finite?
    else if x.significand = 0 then some x
    else if 0 ≤ e then none
    else scaleBy fuel (Magnitude.nearest (x.value.div (powerOfTen greatestPower).value))
      (e + greatestPower)

/-- The number that a decimal significand and exponent stand for, if it is finite: the significand
is rounded first and then scaled. -/
def ofParts? (negative : Bool) (significand : Nat) (exponent : Int) : Option Double :=
  (scaleBy (exponent.natAbs / greatestPower + 2) (Magnitude.nearest ⟨significand, 1⟩) exponent).map
    (ofMagnitude negative)

end Double

end Flowline.Decimal
