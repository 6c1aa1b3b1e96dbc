import Flowline.Json.Node
import Flowline.Text.Glyph
import Flowline.Text.Integer

/-!
# Numbers of JSON

`scanNumeral` reads a number off the start of a text. An integer that 64 bits hold, with or
without sign, stays an integer; everything else is a float, also `-0`. A float is made from its
digits in two steps: as many digits as 64 bits hold are the significand, which is rounded to a
float, and the float is scaled by a power of ten and rounded again. A number too great for a float
cannot be read, only passed over.
-/

namespace Flowline.Json

open Text Decimal

/-- The parts of a number. An exponent that is not written is zero. -/
structure Numeral where
  negative : Bool
  whole : List Char
  /-- The digits after the point, if there is one. -/
  fraction : Option (List Char)
  /-- The exponent, if there is one. -/
  exponent : Option Int

/-- The digits at the start and what follows them. -/
def digitRun : List Glyph → List Char × List Glyph
  | .char c :: s =>
    if c.isDigit then
      let (digits, rest) := digitRun s
      (c :: digits, rest)
    else ([], .char c :: s)
  | s => ([], s)

/-- One digit or more. What is wrong if there is none depends on whether the text goes on. -/
def digitRun₁ (s : List Glyph) : Except Break (List Char × List Glyph) :=
  match digitRun s with
  | ([], []) => .error .cutOff
  | ([], _ :: _) => .error .malformed
  | run => .ok run

/-- The digits before the point: a zero stands alone. -/
def scanWhole (s : List Glyph) : Except Break (List Char × List Glyph) :=
  match digitRun₁ s with
  | .ok ('0' :: _ :: _, _) => .error .malformed
  | result => result

/-- The point and the digits after it, if there is a point. -/
def scanFraction : List Glyph → Except Break (Option (List Char) × List Glyph)
  | .char '.' :: s => do
    let (digits, rest) ← digitRun₁ s
    return (some digits, rest)
  | s => .ok (none, s)

/-- A sign and what follows it. -/
def scanSign : List Glyph → Bool × List Glyph
  | .char '+' :: s => (false, s)
  | .char '-' :: s => (true, s)
  | s => (false, s)

/-- The exponent, if there is one. -/
def scanExponent (s : List Glyph) : Except Break (Option Int × List Glyph) :=
  let afterMark := fun s => do
    let (negative, s) := scanSign s
    let (digits, rest) ← digitRun₁ s
    let e : Int := digitsValue digits
    return (some (if negative then -e else e), rest)
  match s with
  | .char 'e' :: s => afterMark s
  | .char 'E' :: s => afterMark s
  | s => .ok (none, s)

/-- The parts of the number at the start, and what follows it. -/
def scanParts (s : List Glyph) : Except Break (Numeral × List Glyph) := do
  let (negative, s) := match s with
    | .char '-' :: s => (true, s)
    | s => (false, s)
  let (whole, s) ← scanWhole s
  let (fraction, s) ← scanFraction s
  let (exponent, s) ← scanExponent s
  return (⟨negative, whole, fraction, exponent⟩, s)

/-! ## The value of a number -/

/-- The greatest number that 64 bits hold. -/
def greatestNat64 : Nat := 0xFFFFFFFFFFFFFFFF

/-- Appends digits to a significand while 64 bits hold it: the significand, how many digits it
took, and how many are left over. -/
def appendDigits (significand : Nat) : List Char → Nat × Nat × Nat
  | [] => (significand, 0, 0)
  | c :: rest =>
    let next := 10 * significand + (c.toNat - '0'.toNat)
    if next ≤ greatestNat64 then
      let (s, taken, left) := appendDigits next rest
      (s, taken + 1, left)
    else (significand, 0, rest.length + 1)

/-- The number that the parts stand for, if there is one. -/
def Numeral.value? (n : Numeral) : Option Number :=
  let (significand, _, left) := appendDigits 0 n.whole
  let float (significand : Nat) (e : Int) : Option Number :=
    (Double.ofParts? n.negative significand e).map .float
  match n.fraction, n.exponent with
  | none, none =>
    if left ≠ 0 then float significand left
    else if ¬n.negative then some (.integer significand)
    else if significand ≠ 0 ∧ significand ≤ 0x8000000000000000 then some (.integer (-significand))
    else float significand 0
  | fraction, exponent =>
    let (significand, taken, _) := appendDigits significand (fraction.getD [])
    float significand ((left : Int) - taken + exponent.getD 0)

/-- The number at the start of the text and what follows it. A number that is not one in form
cannot even be passed over. -/
def scanNumeral (s : List Glyph) : Token Number × Option (List Glyph) :=
  match scanParts s with
  | .error b => (⟨.error b, some .malformed⟩, none)
  | .ok (n, rest) =>
    match n.value? with
    | some x => (.good x, some rest)
    | none => (.unreadable, some rest)

end Flowline.Json
