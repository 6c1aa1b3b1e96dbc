import Flowline.Text.Blank

/-!
# Integers in text

`integer?` reads a decimal integer: an optional sign, then one digit or more and nothing else.
`int64?` also asks that 64 bits hold the number. `integerText` writes an integer. Of base 16 there
are single digits, which `hexValue?` reads in either case and `hexDigit` writes in lower case.
-/

namespace Flowline.Text

/-- The number that the digits spell, most significant first. -/
def digitsValue (digits : List Char) : Nat := Nat.ofDigitChars 10 digits 0

/-- A number in digits alone, at least one. -/
def natural? (s : List Char) : Option Nat :=
  if s ≠ [] ∧ s.all Char.isDigit then some (digitsValue s) else none

/-- A decimal integer with an optional sign. -/
def integer? : List Char → Option Int
  | '-' :: s => (natural? s).map fun n => -(n : Int)
  | '+' :: s => (natural? s).map fun n => (n : Int)
  | s => (natural? s).map fun n => (n : Int)

/-- The decimal digits of an integer, behind a sign if it is negative. -/
def integerText (n : Int) : String := (if n < 0 then "-" else "") ++ n.natAbs.repr

/-- The numbers that 64 bits hold in two's complement. -/
def IsInt64 (n : Int) : Prop := -0x8000000000000000 ≤ n ∧ n ≤ 0x7FFFFFFFFFFFFFFF

instance (n : Int) : Decidable (IsInt64 n) := inferInstanceAs (Decidable (_ ∧ _))

/-- A decimal integer that 64 bits hold. -/
def int64? (s : List Char) : Option Int :=
  (integer? s).bind fun n => if IsInt64 n then some n else none

/-! ## Digits of base 16 -/

/-- The value of a digit of base 16. -/
def hexValue? (c : Char) : Option Nat :=
  if c.isDigit then some (c.toNat - '0'.toNat)
  else if 'a' ≤ c ∧ c ≤ 'f' then some (c.toNat - 'a'.toNat + 10)
  else if 'A' ≤ c ∧ c ≤ 'F' then some (c.toNat - 'A'.toNat + 10)
  else none

/-- The last digit of a number in base 16, in lower case. -/
def hexDigit (n : Nat) : Char := Nat.digitChar (n % 16)

end Flowline.Text
