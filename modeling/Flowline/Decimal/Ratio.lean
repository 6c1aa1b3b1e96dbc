/-!
# Fractions

Exact arithmetic for numbers that are rounded only at the end: a `Ratio` is a fraction of natural
numbers, not reduced. `nearest` rounds it to an integer and `log2` finds its place between the
powers of two.
-/

namespace Flowline.Decimal

/-- A fraction that is not negative. -/
structure Ratio where
  num : Nat
  den : Nat

namespace Ratio

/-- `n · 10 ^ e`. -/
def ofDecimal (n : Nat) (e : Int) : Ratio :=
  if 0 ≤ e then ⟨n * Nat.pow 10 e.toNat, 1⟩ else ⟨n, Nat.pow 10 e.natAbs⟩

/-- `n · 2 ^ e`. -/
def ofBinary (n : Nat) (e : Int) : Ratio :=
  if 0 ≤ e then ⟨n * Nat.pow 2 e.toNat, 1⟩ else ⟨n, Nat.pow 2 e.natAbs⟩

def lt (x y : Ratio) : Bool := x.num * y.den < y.num * x.den

def le (x y : Ratio) : Bool := x.num * y.den ≤ y.num * x.den

/-- The distance of two fractions. -/
def distance (x y : Ratio) : Ratio :=
  ⟨max (x.num * y.den) (y.num * x.den) - min (x.num * y.den) (y.num * x.den), x.den * y.den⟩

def mul (x y : Ratio) : Ratio := ⟨x.num * y.num, x.den * y.den⟩

/-- The quotient by a fraction that is not zero. -/
def div (x y : Ratio) : Ratio := ⟨x.num * y.den, x.den * y.num⟩

/-- The nearest integer, and the even one if two are equally near. -/
def nearest (x : Ratio) : Nat :=
  let below := x.num / x.den
  let rest := 2 * (x.num % x.den)
  if rest < x.den ∨ rest = x.den ∧ below % 2 = 0 then below else below + 1

/-- The exponent of the greatest power of two that is not above the fraction. The fraction is not
zero. -/
def log2 (x : Ratio) : Int :=
  let e : Int := (x.num.log2 : Int) - x.den.log2
  if (ofBinary 1 e).le x then e else e - 1

end Ratio

end Flowline.Decimal
