import Flowline.Time.Date

/-!
# Points in time

An `Instant` is a point in universal time with nanoseconds. A leap second is kept: it is the
second 59 of its minute with a billion nanoseconds or more. `Instant.text` writes the instant in
the form of RFC 3339 with `Z`, with as few of 0, 3, 6 or 9 fraction digits as lose nothing.
-/

namespace Flowline.Time

/-- A point in universal time. -/
structure Instant where
  /-- Days since the first of January 1970. -/
  day : Int
  /-- Seconds since midnight. -/
  second : Nat
  /-- Nanoseconds; a billion or more in a leap second. -/
  nano : Nat
  second_lt : second < 86400 := by omega
  nano_lt : nano < 2000000000 := by omega
deriving DecidableEq

namespace Instant

instance : Inhabited Instant := ⟨{ day := 0, second := 0, nano := 0 }⟩

/-- The instant that lies so many nanoseconds after the start of January 1970. -/
def ofNanoseconds (n : Int) : Instant where
  day := n / 86400000000000
  second := (n % 86400000000000 / 1000000000).toNat
  nano := (n % 1000000000).toNat

/-- The date that the instant lies in. -/
def date (t : Instant) : Date := Date.ofDayNumber t.day

/-! ## Writing -/

/-- The decimal digits of a number, with leading zeros up to `width`. -/
def zeroPadded (width n : Nat) : String :=
  let digits := n.repr
  String.ofList (List.replicate (width - digits.length) '0') ++ digits

/-- Four digits for the years 0 to 9999; otherwise a sign and at least four digits. -/
def yearText (year : Int) : String :=
  if 0 ≤ year ∧ year ≤ 9999 then zeroPadded 4 year.toNat
  else (if year < 0 then "-" else "+") ++ zeroPadded 4 year.natAbs

/-- The fraction with its point, nothing if it is zero. -/
def fractionText (nano : Nat) : String :=
  if nano = 0 then ""
  else if nano % 1000000 = 0 then "." ++ zeroPadded 3 (nano / 1000000)
  else if nano % 1000 = 0 then "." ++ zeroPadded 6 (nano / 1000)
  else "." ++ zeroPadded 9 nano

/-- The written second: 60 in a leap second. -/
def shownSecond (t : Instant) : Nat := t.second % 60 + t.nano / 1000000000

/-- The instant in the form of RFC 3339, with the shortest exact fraction. -/
def text (t : Instant) : String :=
  yearText t.date.year ++ "-" ++ zeroPadded 2 t.date.month ++ "-" ++ zeroPadded 2 t.date.day ++
    "T" ++ zeroPadded 2 (t.second / 3600) ++ ":" ++ zeroPadded 2 (t.second / 60 % 60) ++ ":" ++
    zeroPadded 2 t.shownSecond ++ fractionText (t.nano % 1000000000) ++ "Z"

end Instant

end Flowline.Time
