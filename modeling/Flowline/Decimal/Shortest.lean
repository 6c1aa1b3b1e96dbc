import Flowline.Decimal.Double

/-!
# The shortest decimal of a float

`shortest` gives the fewest digits whose decimal reads back as the number, and of those the
decimal nearest to it. It works on exact numbers: the magnitude is a significand times a power of
two, the decimals that read back lie in an interval around it, and for one digit, two digits, and
so on the two neighbours of the number on that decimal grid are tried. `Double.text` writes the
digits.
-/

namespace Flowline.Decimal

/-- The decimals that read back as a number: an interval, whose ends belong to it or not. -/
structure Interval where
  low : Ratio
  high : Ratio
  closed : Bool

def Interval.contains (i : Interval) (x : Ratio) : Bool :=
  if i.closed then i.low.le x && x.le i.high else i.low.lt x && x.lt i.high

/-- The interval around `m · 2 ^ (q - 1075)`, half-way to its neighbours. The neighbour below a
power of two is nearer, unless it is subnormal. -/
def Interval.around (m q : Nat) : Interval where
  low := if m = 0x10000000000000 ∧ 1 < q then Ratio.ofBinary (4 * m - 1) ((q : Int) - 1077)
    else Ratio.ofBinary (2 * m - 1) ((q : Int) - 1076)
  high := Ratio.ofBinary (2 * m + 1) ((q : Int) - 1076)
  closed := m % 2 = 0

/-- Digits and an exponent: `digits · 10 ^ exponent`. -/
structure Scientific where
  digits : Nat
  exponent : Int
deriving DecidableEq

/-- The decimal of the two neighbours of `x` on the grid `10 ^ e` that lies in the interval, the
nearer one if both do, and at a tie the one with an even digit. -/
def onGrid? (i : Interval) (x : Ratio) (e : Int) : Option Scientific :=
  let unit := Ratio.ofDecimal 1 e
  let below := x.num * unit.den / (x.den * unit.num)
  let lower := Ratio.ofDecimal below e
  let upper := Ratio.ofDecimal (below + 1) e
  match i.contains lower && below ≠ 0, i.contains upper with
  | true, true =>
    let dl := x.distance lower
    let du := x.distance upper
    if dl.lt du then some ⟨below, e⟩
    else if du.lt dl then some ⟨below + 1, e⟩
    else some ⟨if below % 2 = 0 then below else below + 1, e⟩
  | true, false => some ⟨below, e⟩
  | false, true => some ⟨below + 1, e⟩
  | false, false => none

/-- The decimal exponent of the first digit of a fraction, looked for downwards from `e`. -/
def leadingExponent (x : Ratio) : Nat → Int → Int
  | 0, e => e
  | fuel + 1, e => if (Ratio.ofDecimal 1 e).le x then e else leadingExponent x fuel (e - 1)

/-- The fewest digits that read back as `m · 2 ^ (q - 1075)`; seventeen always do. -/
def shortest (m q : Nat) : Scientific :=
  let x := Ratio.ofBinary m ((q : Int) - 1075)
  let lead := leadingExponent x 640 309
  let i := Interval.around m q
  ((List.range 17).findSome? fun (n : Nat) => onGrid? i x (lead - n)).getD ⟨0, 0⟩

/-- The decimal without zeros at the end of its digits. -/
def Scientific.stripZeros : Nat → Scientific → Scientific
  | 0, d => d
  | fuel + 1, d =>
    if d.digits ≠ 0 ∧ d.digits % 10 = 0 then stripZeros fuel ⟨d.digits / 10, d.exponent + 1⟩ else d

/-! ## Writing -/

/-- The first exponent that is written out, for numbers of at least one. -/
def exponentFormFrom : Int := 16

/-- The last exponent that is not written out, for numbers below one. -/
def exponentFormBelow : Int := -5

/-- The sign and digits of an exponent. -/
def exponentText (e : Int) : String := (if e < 0 then "-" else "+") ++ e.natAbs.repr

/-- A positive decimal: with a point between the bounds, otherwise with an exponent after the
digits, of which all but the first stand behind a point. -/
def Scientific.text (d : Scientific) : String :=
  let digits := d.digits.repr.toList
  let count : Int := digits.length
  let lead := d.exponent + count - 1
  if exponentFormFrom ≤ lead ∨ lead < exponentFormBelow then
    match digits with
    | [] => ""
    | [c] => String.ofList [c] ++ "e" ++ exponentText lead
    | c :: more => String.ofList (c :: '.' :: more) ++ "e" ++ exponentText lead
  else if 0 ≤ d.exponent then
    String.ofList (digits ++ List.replicate d.exponent.toNat '0') ++ ".0"
  else if 0 ≤ lead then
    let whole := (lead + 1).toNat
    String.ofList (digits.take whole ++ '.' :: digits.drop whole)
  else
    String.ofList ('0' :: '.' :: List.replicate (-lead - 1).toNat '0' ++ digits)

/-- The shortest decimal that reads back as the number; it always has a point or an exponent. -/
def Double.text (x : Double) : String :=
  (if x.isNegative then "-" else "") ++
    if x.significand = 0 then "0.0"
    else ((shortest x.significand x.exponent).stripZeros 20).text

end Flowline.Decimal
