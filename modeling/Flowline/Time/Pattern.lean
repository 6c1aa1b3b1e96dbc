import Flowline.Text.Integer
import Flowline.Time.Instant

/-!
# Reading times

A `Pattern` is a list of items that are read one after the other and fill in the fields of a
time; nothing may be left over. `timestamp?` tries the patterns that events use: RFC 3339 with
an offset, then a date and a time without one, which counts as universal time.
`zonedTimestamp?` is for full records: there the offset is required, and blanks may stand in
most places.
-/

namespace Flowline.Time

open Text

/-- The fields that a pattern fills in. The offset is in seconds, east being positive. -/
structure Fields where
  year : Int
  month : Nat
  day : Nat
  hour : Nat
  minute : Nat
  second : Nat
  nano : Nat
  offset : Int
deriving DecidableEq

/-- Nothing read yet. -/
def Fields.none : Fields := ⟨0, 0, 0, 0, 0, 0, 0, 0⟩

/-- The instant that the fields name, if the date exists and the clock shows such a time. The
second 60 is a leap second, whatever the minute. -/
def Fields.instant? (f : Fields) : Option Instant :=
  let date : Date := ⟨f.year, f.month, f.day⟩
  if h : date.IsValid ∧ f.hour < 24 ∧ f.minute < 60 ∧ f.second ≤ 60 ∧ f.nano < 1000000000 ∧
      f.offset.natAbs < 86400 then
    let leap := if f.second = 60 then 1 else 0
    let clock : Int := 3600 * f.hour + 60 * f.minute + (f.second - leap : Nat) - f.offset
    let instant : Instant :=
      { day := date.dayNumber + clock.fdiv 86400
        second := (clock.fmod 86400).toNat
        nano := f.nano + 1000000000 * leap
        second_lt := by
          have := Int.fmod_lt_of_pos clock (by decide : (0 : Int) < 86400)
          have := Int.fmod_nonneg_of_pos clock (by decide : (0 : Int) < 86400)
          omega
        nano_lt := by
          have := h.2.2.2.2.1
          simp only [leap]
          split <;> omega }
    if instant.date.IsValid then some instant else Option.none
  else Option.none

/-! ## Items -/

/-- The fields that are plain numbers. -/
inductive Unit where
  | month
  | day
  | hour
  | minute
  | second
deriving DecidableEq

/-- Writes a number into its field. -/
def Fields.set (f : Fields) (unit : Unit) (n : Nat) : Fields :=
  match unit with
  | .month => { f with month := n }
  | .day => { f with day := n }
  | .hour => { f with hour := n }
  | .minute => { f with minute := n }
  | .second => { f with second := n }

/-- What a pattern is made of. -/
inductive Item where
  /-- Exactly four digits. -/
  | fullYear
  /-- Blanks, then up to four digits, or a sign and any number of digits. -/
  | year
  /-- Exactly two digits. -/
  | twoDigits (unit : Unit)
  /-- Blanks, then one or two digits. -/
  | number (unit : Unit)
  /-- One of these characters. -/
  | oneOf (marks : List Char)
  /-- Any number of blanks, also none. -/
  | blanks
  /-- A point and one digit or more, or nothing. Digits after the ninth are read over. -/
  | fraction
  /-- `Z`, or a sign with two digits of hours and two of minutes with a colon between them. -/
  | offset
  /-- As `offset`, but between hours and minutes stand any number of colons and blanks, and
  `UTC` in any case is an offset too. -/
  | looseOffset

/-- Up to `most` digits from the start, at least `least`: their value and the rest. -/
def digits? (least most : Nat) (s : List Char) : Option (Nat × List Char) :=
  let digits := (s.take most).takeWhile Char.isDigit
  if least ≤ digits.length then some (digitsValue digits, s.drop digits.length) else none

/-- The fraction in nanoseconds from the digits after the point, and what follows the digits. -/
def nanos? (s : List Char) : Option (Nat × List Char) :=
  let digits := s.takeWhile Char.isDigit
  if digits = [] then none
  else
    some (digitsValue (digits.take 9) * Nat.pow 10 (9 - min 9 digits.length),
      s.dropWhile Char.isDigit)

/-- The sign of an offset. The minus sign may be the mathematical one. -/
def offsetSign? : Char → Option Int
  | '+' => some 1
  | '-' => some (-1)
  | '\u2212' => some (-1)
  | _ => none

/-- Hours and minutes after a sign, with what `between` takes off between them. -/
def signedOffset? (between : List Char → Option (List Char)) : List Char → Option (Int × List Char)
  | [] => none
  | c :: s => do
    let sign ← offsetSign? c
    let (hours, s) ← digits? 2 2 s
    let s ← between s
    let (minutes, s) ← digits? 2 2 s
    if minutes < 60 then some (sign * (3600 * hours + 60 * minutes), s) else none

/-- An offset in seconds and what follows it. -/
def offset? (between : List Char → Option (List Char)) (s : List Char) : Option (Int × List Char) :=
  match s with
  | 'Z' :: rest => some (0, rest)
  | 'z' :: rest => some (0, rest)
  | _ => signedOffset? between s

/-- One colon. -/
def colon? : List Char → Option (List Char)
  | ':' :: s => some s
  | _ => none

/-- Any number of colons and blanks. -/
def colonsAndBlanks (s : List Char) : List Char := s.dropWhile fun c => c == ':' || isBlank c

/-- The letters `UTC` in any case at the start: what follows them. -/
def utc? (s : List Char) : Option (List Char) :=
  if (s.take 3).map Char.toUpper = ['U', 'T', 'C'] then some (s.drop 3) else none

/-- Reads one item: the fields after it and the text after it. -/
def Item.read (f : Fields) (s : List Char) : Item → Option (Fields × List Char)
  | .fullYear => (digits? 4 4 s).map fun (n, rest) => ({ f with year := n }, rest)
  | .year =>
    match trimLeft s with
    | '+' :: s => (digits? 1 s.length s).map fun (n, rest) => ({ f with year := n }, rest)
    | '-' :: s => (digits? 1 s.length s).map fun (n, rest) => ({ f with year := -n }, rest)
    | s => (digits? 1 4 s).map fun (n, rest) => ({ f with year := n }, rest)
  | .twoDigits unit => (digits? 2 2 s).map fun (n, rest) => (f.set unit n, rest)
  | .number unit => (digits? 1 2 (trimLeft s)).map fun (n, rest) => (f.set unit n, rest)
  | .oneOf marks =>
    match s with
    | [] => none
    | c :: rest => if c ∈ marks then some (f, rest) else none
  | .blanks => some (f, trimLeft s)
  | .fraction =>
    match s with
    | '.' :: rest => (nanos? rest).map fun (n, rest) => ({ f with nano := n }, rest)
    | _ => some (f, s)
  | .offset => (offset? colon? s).map fun (n, rest) => ({ f with offset := n }, rest)
  | .looseOffset =>
    match utc? s with
    | some rest => some (f, rest)
    | none =>
      (offset? (fun s => some (colonsAndBlanks s)) s).map
        fun (n, rest) => ({ f with offset := n }, rest)

/-! ## Patterns -/

abbrev Pattern := List Item

/-- Reads the items in turn. -/
def Pattern.fields? (f : Fields) (s : List Char) : Pattern → Option Fields
  | [] => if s = [] then some f else none
  | item :: items =>
    match item.read f s with
    | none => none
    | some (f, rest) => fields? f rest items

/-- The instant that the whole text names. -/
def Pattern.instant? (p : Pattern) (s : List Char) : Option Instant :=
  (Pattern.fields? Fields.none s p).bind Fields.instant?

/-- RFC 3339, with a blank allowed for the `T`. -/
def Pattern.rfc3339 : Pattern :=
  [.fullYear, .oneOf ['-'], .twoDigits .month, .oneOf ['-'], .twoDigits .day,
   .oneOf ['T', 't', ' '], .twoDigits .hour, .oneOf [':'], .twoDigits .minute, .oneOf [':'],
   .twoDigits .second, .fraction, .offset]

/-- A date and a time without an offset, with `between` between them. -/
def Pattern.plain (between : Item) : Pattern :=
  [.year, .oneOf ['-'], .number .month, .oneOf ['-'], .number .day, between,
   .number .hour, .oneOf [':'], .number .minute, .oneOf [':'], .number .second, .fraction]

/-- A date and a time with an offset, with blanks in most places. -/
def Pattern.zoned : Pattern :=
  [.year, .blanks, .oneOf ['-'], .number .month, .blanks, .oneOf ['-'], .number .day,
   .oneOf ['T', 't', ' '], .number .hour, .blanks, .oneOf [':'], .number .minute, .blanks,
   .oneOf [':'], .number .second, .fraction, .blanks, .looseOffset, .blanks]

/-- The time that an event or a patch names: blanks around it do not count. -/
def timestamp? (s : String) : Option Instant :=
  [Pattern.rfc3339, Pattern.plain .blanks, Pattern.plain (.oneOf ['T'])].findSome? fun p =>
    p.instant? (trim s.toList)

/-- The time that a full record names: its offset is written out. -/
def zonedTimestamp? (s : String) : Option Instant := Pattern.zoned.instant? s.toList

end Flowline.Time
