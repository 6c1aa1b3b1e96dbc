import Flowline.Proofs.Json.Numeral
import Flowline.Proofs.Text.Blank
import Flowline.Proofs.Time.Calendar
import Flowline.Time.Pattern

/-!
# Written times are read back

An instant is proper if its date exists and a leap second, should it have one, ends a minute:
whatever is read from a text is (`isProper_of_timestamp?`). Each item of a pattern reads what is
written for its part of an instant and leaves the rest, so a pattern that asks for an offset finds
the fields of the instant again, and these name it (`instant?_fields`).

The year decides which patterns these are. The reader of full records takes every written instant
(`zonedTimestamp?_text`). The reader of events takes it if and only if its year has four digits and
no sign (`timestamp?_text`): the pattern with an offset wants exactly four digits, and a pattern
that takes a sign wants the text to end before the `Z`.
-/

namespace Flowline.Time

open Text Json

/-! ## Proper instants -/

namespace Instant

/-- The date exists, and only the last second of a minute is a leap second. -/
structure IsProper (t : Instant) : Prop where
  date : t.date.IsValid
  leap : 1000000000 ≤ t.nano → t.second % 60 = 59

instance (t : Instant) : Decidable t.IsProper :=
  decidable_of_iff (t.date.IsValid ∧ (1000000000 ≤ t.nano → t.second % 60 = 59))
    ⟨fun h => ⟨h.1, h.2⟩, fun h => ⟨h.date, h.leap⟩⟩

/-- The year of the instant is written with four digits and no sign. -/
def HasPlainYear (t : Instant) : Prop := 0 ≤ t.date.year ∧ t.date.year ≤ 9999

instance (t : Instant) : Decidable t.HasPlainYear := inferInstanceAs (Decidable (_ ∧ _))

end Instant

/-! ## Digits -/

/-- What may follow a number. -/
def EndsDigits (rest : List Char) : Prop := ∀ c ∈ rest.head?, c.isDigit = false

theorem endsDigits_cons {c : Char} (h : c.isDigit = false) (rest : List Char) :
    EndsDigits (c :: rest) := by
  intro c' hc'
  cases hc'
  exact h

theorem takeWhile_isDigit_append {ds rest : List Char} (h : IsDigits ds) (hrest : EndsDigits rest) :
    (ds ++ rest).takeWhile Char.isDigit = ds := by
  rw [List.takeWhile_append_of_pos h.2]
  cases rest with
  | nil => exact List.append_nil ds
  | cons c rest =>
    rw [List.takeWhile_cons_of_neg (by rw [hrest c rfl]; exact Bool.false_ne_true), List.append_nil]

theorem dropWhile_isDigit_append {ds rest : List Char} (h : IsDigits ds) (hrest : EndsDigits rest) :
    (ds ++ rest).dropWhile Char.isDigit = rest := by
  rw [List.dropWhile_append_of_pos h.2]
  cases rest with
  | nil => rfl
  | cons c rest =>
    exact List.dropWhile_cons_of_neg (by rw [hrest c rfl]; exact Bool.false_ne_true)

theorem toList_zeroPadded (width n : Nat) : (Instant.zeroPadded width n).toList =
    List.replicate (width - (Nat.toDigits 10 n).length) '0' ++ Nat.toDigits 10 n := by
  simp only [Instant.zeroPadded, String.toList_append, String.toList_ofList, Nat.toList_repr,
    ← String.length_toList]

theorem isDigits_zeroPadded (width n : Nat) : IsDigits (Instant.zeroPadded width n).toList := by
  rw [toList_zeroPadded]
  refine ⟨List.append_ne_nil_of_right_ne_nil _ Nat.toDigits_ne_nil, fun c hc => ?_⟩
  rcases List.mem_append.1 hc with hc | hc
  · rw [List.eq_of_mem_replicate hc]
    rfl
  · exact (isDigits_toDigits n).2 c hc

theorem digitsValue_zeroPadded (width n : Nat) :
    digitsValue (Instant.zeroPadded width n).toList = n := by
  have hpadding : Nat.ofDigitChars 10
      (List.replicate (width - (Nat.toDigits 10 n).length) '0' ++ Nat.toDigits 10 n) 0 = n := by
    rw [Nat.ofDigitChars_append, Nat.ofDigitChars_replicate_zero, Nat.mul_zero]
    exact digitsValue_toDigits n
  rw [toList_zeroPadded]
  exact hpadding

theorem length_zeroPadded {width n : Nat} (hwidth : 0 < width) (h : n < 10 ^ width) :
    (Instant.zeroPadded width n).toList.length = width := by
  have hlength := (Nat.length_toDigits_le_iff (by decide) hwidth).2 h
  rw [toList_zeroPadded, List.length_append, List.length_replicate]
  omega

/-- Digits are read as far as they go, or as far as they may go. -/
theorem digits?_append {ds rest : List Char} (h : IsDigits ds) {least most : Nat}
    (hleast : least ≤ ds.length) (hmost : ds.length ≤ most)
    (hrest : ds.length = most ∨ EndsDigits rest) :
    digits? least most (ds ++ rest) = some (digitsValue ds, rest) := by
  have htake : ((ds ++ rest).take most).takeWhile Char.isDigit = ds := by
    rcases hrest with rfl | hrest
    · rw [List.take_left, List.takeWhile_eq_self_iff.2 h.2]
    · rw [List.take_append, List.take_of_length_le hmost]
      refine takeWhile_isDigit_append h fun c hc => ?_
      cases rest with
      | nil => simp at hc
      | cons c' rest =>
        cases hn : most - ds.length with
        | zero => simp [hn] at hc
        | succ n =>
          rw [hn, List.take_succ_cons] at hc
          exact hrest c hc
  simp only [digits?, htake, hleast, if_true, List.drop_left]

theorem digits?_zeroPadded {width n : Nat} (hwidth : 0 < width) (h : n < 10 ^ width) {least : Nat}
    (hleast : least ≤ width) (rest : List Char) :
    digits? least width ((Instant.zeroPadded width n).toList ++ rest) = some (n, rest) := by
  have hlength := length_zeroPadded hwidth h
  rw [digits?_append (isDigits_zeroPadded width n) (by omega) (by omega) (.inl hlength),
    digitsValue_zeroPadded]

theorem digits?_cons_eq_none {c : Char} (h : c.isDigit = false) (least most : Nat)
    (s : List Char) : digits? (least + 1) most (c :: s) = none := by
  have htake : ((c :: s).take most).takeWhile Char.isDigit = [] := by
    cases most with
    | zero => rfl
    | succ most => rw [List.take_succ_cons, List.takeWhile_cons_of_neg (by simp [h])]
  simp [digits?, htake]

/-! ## Items -/

section Items

variable {f : Fields} {rest : List Char}

theorem trimLeft_cons {c : Char} (h : isBlank c = false) (s : List Char) :
    trimLeft (c :: s) = c :: s :=
  trimLeft_eq_self fun c' hc' => by
    cases hc'
    exact h

theorem trimLeft_append_of_isDigits {ds : List Char} (h : IsDigits ds) (rest : List Char) :
    trimLeft (ds ++ rest) = ds ++ rest := by
  obtain ⟨c, cs, rfl⟩ := List.exists_cons_of_ne_nil h.1
  exact trimLeft_cons (isBlank_eq_false_of_isDigit (h.2 c List.mem_cons_self)) _

theorem read_oneOf {marks : List Char} {c : Char} (h : c ∈ marks) :
    (Item.oneOf marks).read f (c :: rest) = some (f, rest) := by
  simp only [Item.read, h, if_true]

theorem read_blanks {c : Char} (h : isBlank c = false) :
    Item.blanks.read f (c :: rest) = some (f, c :: rest) := by
  rw [Item.read, trimLeft_cons h]

theorem read_twoDigits {n : Nat} (h : n < 100) (unit : Unit) :
    (Item.twoDigits unit).read f ((Instant.zeroPadded 2 n).toList ++ rest) =
      some (f.set unit n, rest) := by
  rw [Item.read, digits?_zeroPadded (by decide) h (Nat.le_refl 2)]
  rfl

theorem read_number {n : Nat} (h : n < 100) (unit : Unit) :
    (Item.number unit).read f ((Instant.zeroPadded 2 n).toList ++ rest) =
      some (f.set unit n, rest) := by
  rw [Item.read, trimLeft_append_of_isDigits (isDigits_zeroPadded 2 n),
    digits?_zeroPadded (by decide) h (by decide)]
  rfl

/-- What is written for a year has a sign, but for the years of four digits. -/
theorem toList_yearText (year : Int) : (Instant.yearText year).toList =
    (if 0 ≤ year ∧ year ≤ 9999 then [] else if year < 0 then ['-'] else ['+']) ++
      (Instant.zeroPadded 4 year.natAbs).toList := by
  unfold Instant.yearText
  split
  · next h =>
    have hyear : year.natAbs = year.toNat := by omega
    rw [List.nil_append, hyear]
  · split <;> exact String.toList_append

theorem read_fullYear {year : Int} (h : 0 ≤ year ∧ year ≤ 9999) :
    Item.fullYear.read f ((Instant.yearText year).toList ++ rest) =
      some ({ f with year := year }, rest) := by
  have hyear : (year.natAbs : Int) = year := by omega
  rw [toList_yearText, if_pos h, List.nil_append, Item.read,
    digits?_zeroPadded (by decide) (by omega) (Nat.le_refl 4)]
  simp only [Option.map_some, hyear]

/-- A sign is no digit. -/
theorem read_fullYear_eq_none {year : Int} (h : ¬ (0 ≤ year ∧ year ≤ 9999)) :
    Item.fullYear.read f ((Instant.yearText year).toList ++ rest) = none := by
  rw [toList_yearText, if_neg h, Item.read]
  split
  all_goals
    rw [List.cons_append, List.cons_append, digits?_cons_eq_none (by decide)]
    rfl

theorem read_year (year : Int) (hrest : EndsDigits rest) :
    Item.year.read f ((Instant.yearText year).toList ++ rest) =
      some ({ f with year := year }, rest) := by
  have hdigits := isDigits_zeroPadded 4 year.natAbs
  have hlength : 1 ≤ (Instant.zeroPadded 4 year.natAbs).toList.length :=
    List.length_pos_iff.2 hdigits.1
  have hsigned : digits? 1 ((Instant.zeroPadded 4 year.natAbs).toList ++ rest).length
      ((Instant.zeroPadded 4 year.natAbs).toList ++ rest) = some (year.natAbs, rest) := by
    rw [digits?_append hdigits hlength (by rw [List.length_append]; omega) (.inr hrest),
      digitsValue_zeroPadded]
  rw [toList_yearText]
  by_cases hplain : 0 ≤ year ∧ year ≤ 9999
  · have hyear : (year.natAbs : Int) = year := by omega
    have hfour : digits? 1 4 ((Instant.zeroPadded 4 year.natAbs).toList ++ rest) =
        some (year.natAbs, rest) := digits?_zeroPadded (by decide) (by omega) (by decide) rest
    have hnot : ∀ c s, c.isDigit = false →
        (Instant.zeroPadded 4 year.natAbs).toList ++ rest ≠ c :: s := by
      intro c s hc heq
      obtain ⟨d, ds, hds⟩ := List.exists_cons_of_ne_nil hdigits.1
      rw [hds, List.cons_append] at heq
      have hd := hdigits.2 d (hds ▸ List.mem_cons_self)
      rw [(List.cons.inj heq).1, hc] at hd
      exact Bool.false_ne_true hd
    rw [if_pos hplain, List.nil_append, Item.read, trimLeft_append_of_isDigits hdigits]
    split
    · next heq => exact absurd heq (hnot _ _ (by decide))
    · next heq => exact absurd heq (hnot _ _ (by decide))
    · simp only [hfour, Option.map_some, hyear]
  · have htrim : ∀ c ∈ ['-', '+'], ∀ s, trimLeft (c :: s) = c :: s := fun c hc s =>
      trimLeft_cons (by rcases List.mem_pair.1 hc with rfl | rfl <;> decide) s
    rw [if_neg hplain]
    split
    · next hnegative =>
      have hyear : -(year.natAbs : Int) = year := by omega
      simp only [List.cons_append, List.nil_append, Item.read, htrim '-' (by decide), hsigned,
        Option.map_some, hyear]
    · have hyear : (year.natAbs : Int) = year := by omega
      simp only [List.cons_append, List.nil_append, Item.read, htrim '+' (by decide), hsigned,
        Option.map_some, hyear]

/-- The digits of a fraction are filled up with zeros to nine. -/
theorem read_point {width n nano : Nat} (hwidth : 0 < width) (hnine : width ≤ 9)
    (hn : n < 10 ^ width) (hnano : n * Nat.pow 10 (9 - width) = nano) (hrest : EndsDigits rest) :
    Item.fraction.read f ('.' :: ((Instant.zeroPadded width n).toList ++ rest)) =
      some ({ f with nano := nano }, rest) := by
  have hlength := length_zeroPadded hwidth hn
  have hdigits := isDigits_zeroPadded width n
  have hnanos : nanos? ((Instant.zeroPadded width n).toList ++ rest) = some (nano, rest) := by
    rw [nanos?, takeWhile_isDigit_append hdigits hrest, dropWhile_isDigit_append hdigits hrest]
    simp only [hdigits.1, if_false]
    rw [List.take_of_length_le (by omega), digitsValue_zeroPadded, hlength, Nat.min_eq_right hnine,
      hnano]
  simp only [Item.read, hnanos, Option.map_some]

theorem toList_point (s : String) : ("." ++ s).toList = '.' :: s.toList := by
  rw [String.toList_append]
  rfl

theorem read_fraction {nano : Nat} (h : nano < 1000000000) (hnano : f.nano = 0)
    (hrest : EndsDigits rest) (hpoint : rest.head? ≠ some '.') :
    Item.fraction.read f ((Instant.fractionText nano).toList ++ rest) =
      some ({ f with nano := nano }, rest) := by
  unfold Instant.fractionText
  split
  · next hzero =>
    have hself : { f with nano := nano } = f := by rw [hzero, ← hnano]
    rw [hself, String.toList_empty, List.nil_append, Item.read]
    rintro rest rfl
    exact hpoint rfl
  · split
    · have hmillis : nano / 1000000 * 1000000 = nano := by omega
      rw [toList_point, List.cons_append]
      exact read_point (by decide) (by decide) (by omega) hmillis hrest
    · split
      · have hmicros : nano / 1000 * 1000 = nano := by omega
        rw [toList_point, List.cons_append]
        exact read_point (by decide) (by decide) (by omega) hmicros hrest
      · rw [toList_point, List.cons_append]
        exact read_point (by decide) (by decide) h (Nat.mul_one nano) hrest

theorem read_offset_utc : Item.offset.read f ['Z'] = some ({ f with offset := 0 }, []) := rfl

theorem read_looseOffset_utc :
    Item.looseOffset.read f ['Z'] = some ({ f with offset := 0 }, []) := rfl

/-- Offsets are in whole minutes. -/
theorem dvd_of_offset? {between : List Char → Option (List Char)} {s : List Char} {n : Int}
    (h : offset? between s = some (n, rest)) : 60 ∣ n := by
  unfold offset? at h
  split at h
  · cases h
    exact Int.dvd_zero 60
  · cases h
    exact Int.dvd_zero 60
  · unfold signedOffset? at h
    split at h
    · cases h
    · obtain ⟨sign, -, h⟩ := Option.bind_eq_some_iff.1 h
      obtain ⟨⟨hours, s⟩, -, h⟩ := Option.bind_eq_some_iff.1 h
      obtain ⟨s, -, h⟩ := Option.bind_eq_some_iff.1 h
      obtain ⟨⟨minutes, s⟩, -, h⟩ := Option.bind_eq_some_iff.1 h
      dsimp only at h
      split at h
      · cases h
        exact Dvd.dvd.mul_left (by omega) sign
      · cases h

theorem dvd_offset_of_read {item : Item} {s : List Char} {f' : Fields}
    (h : item.read f s = some (f', rest)) (hf : 60 ∣ f.offset) : 60 ∣ f'.offset := by
  cases item with
  | fullYear =>
    obtain ⟨n, -, heq⟩ := Option.map_eq_some_iff.1 h
    cases heq
    exact hf
  | year =>
    rw [Item.read] at h
    split at h
    all_goals
      obtain ⟨n, -, heq⟩ := Option.map_eq_some_iff.1 h
      cases heq
      exact hf
  | twoDigits unit | number unit =>
    obtain ⟨n, -, heq⟩ := Option.map_eq_some_iff.1 h
    cases heq
    cases unit <;> exact hf
  | oneOf marks =>
    cases s with
    | nil => cases h
    | cons c s =>
      obtain ⟨-, heq⟩ := Option.ite_none_right_eq_some.1 h
      cases heq
      exact hf
  | blanks =>
    cases h
    exact hf
  | fraction =>
    unfold Item.read at h
    dsimp only at h
    split at h
    · obtain ⟨n, -, heq⟩ := Option.map_eq_some_iff.1 h
      cases heq
      exact hf
    · cases h
      exact hf
  | offset =>
    obtain ⟨n, hn, heq⟩ := Option.map_eq_some_iff.1 h
    cases heq
    exact dvd_of_offset? hn
  | looseOffset =>
    rw [Item.read] at h
    split at h
    · cases h
      exact hf
    · obtain ⟨n, hn, heq⟩ := Option.map_eq_some_iff.1 h
      cases heq
      exact dvd_of_offset? hn

end Items

/-! ## Patterns -/

theorem Pattern.fields?_cons {f f' : Fields} {s rest : List Char} {item : Item}
    (h : item.read f s = some (f', rest)) (items : Pattern) :
    Pattern.fields? f s (item :: items) = Pattern.fields? f' rest items := by
  rw [Pattern.fields?, h]

theorem Pattern.fields?_cons_eq_none {f : Fields} {s : List Char} {item : Item}
    (h : item.read f s = none) (items : Pattern) : Pattern.fields? f s (item :: items) = none := by
  rw [Pattern.fields?, h]

theorem Pattern.dvd_offset_of_fields? {p : Pattern} {f f' : Fields} {s : List Char}
    (h : Pattern.fields? f s p = some f') (hf : 60 ∣ f.offset) : 60 ∣ f'.offset := by
  induction p generalizing f s with
  | nil =>
    rw [Pattern.fields?] at h
    split at h
    · cases h
      exact hf
    · cases h
  | cons item items ih =>
    cases hread : item.read f s with
    | none =>
      rw [Pattern.fields?_cons_eq_none hread] at h
      cases h
    | some result =>
      obtain ⟨f'', rest⟩ := result
      rw [Pattern.fields?_cons hread] at h
      exact ih h (dvd_offset_of_read hread hf)

/-- An instant that fields with an offset of whole minutes name is proper. -/
theorem isProper_of_instant? {f : Fields} {t : Instant} (h : f.instant? = some t)
    (hoffset : 60 ∣ f.offset) : t.IsProper := by
  unfold Fields.instant? at h
  dsimp only at h
  split at h
  · next hvalid =>
    obtain ⟨hdate, h⟩ := Option.ite_none_right_eq_some.1 h
    cases h
    refine ⟨hdate, fun hleap => ?_⟩
    dsimp only at hleap ⊢
    obtain ⟨-, -, -, -, hnano, -⟩ := hvalid
    have hsixty : f.second = 60 := by
      by_contra hne
      rw [if_neg hne] at hleap
      omega
    rw [if_pos hsixty, hsixty, Int.fmod_eq_emod_of_nonneg _ (by decide)]
    clear hleap
    omega
  · cases h

theorem Pattern.isProper_of_instant? {p : Pattern} {s : List Char} {t : Instant}
    (h : p.instant? s = some t) : t.IsProper := by
  obtain ⟨f, hf, h⟩ := Option.bind_eq_some_iff.1 h
  exact Time.isProper_of_instant? h (Pattern.dvd_offset_of_fields? hf (Int.dvd_zero 60))

theorem isProper_of_timestamp? {s : String} {t : Instant} (h : timestamp? s = some t) :
    t.IsProper := by
  obtain ⟨p, -, hp⟩ := List.exists_of_findSome?_eq_some h
  exact p.isProper_of_instant? hp

/-! ## Written instants -/

namespace Instant

/-- The fields that are written for an instant. -/
def fields (t : Instant) : Fields :=
  ⟨t.date.year, t.date.month, t.date.day, t.second / 3600, t.second / 60 % 60, t.shownSecond,
    t.nano % 1000000000, 0⟩

/-- What is written after the date and its `T`. -/
def clockChars (t : Instant) : List Char :=
  (zeroPadded 2 (t.second / 3600)).toList ++ ':' :: ((zeroPadded 2 (t.second / 60 % 60)).toList ++
    ':' :: ((zeroPadded 2 t.shownSecond).toList ++
      ((fractionText (t.nano % 1000000000)).toList ++ ['Z'])))

theorem toList_text (t : Instant) : t.text.toList = (yearText t.date.year).toList ++
    '-' :: ((zeroPadded 2 t.date.month).toList ++ '-' :: ((zeroPadded 2 t.date.day).toList ++
      'T' :: t.clockChars)) := by
  have hminus : "-".toList = ['-'] := rfl
  have hmark : "T".toList = ['T'] := rfl
  have hcolon : ":".toList = [':'] := rfl
  have hzulu : "Z".toList = ['Z'] := rfl
  simp only [text, clockChars, String.toList_append, hminus, hmark, hcolon, hzulu,
    List.append_assoc, List.cons_append, List.nil_append]

/-- The numbers of the date and the clock have two digits. -/
theorem fields_lt (t : Instant) : t.date.month < 100 ∧ t.date.day < 100 ∧ t.second / 3600 < 100 ∧
    t.second / 60 % 60 < 100 ∧ t.shownSecond < 100 ∧ t.nano % 1000000000 < 1000000000 := by
  have hmonth := Date.month_mem_ofDayNumber t.day
  have hday := Date.day_mem_ofDayNumber t.day
  have hdays : ∀ year month, daysInMonth year month ≤ 31 := by
    intro year month
    unfold daysInMonth
    split <;> try decide
    split <;> decide
  have hlast := hdays t.date.year t.date.month
  have hsecond := t.second_lt
  have hnano := t.nano_lt
  unfold shownSecond
  unfold date at hlast ⊢
  refine ⟨by omega, by omega, by omega, by omega, by omega, by omega⟩

/-- The fields of a proper instant name it. -/
theorem instant?_fields {t : Instant} (h : t.IsProper) : t.fields.instant? = some t := by
  have hsecond := t.second_lt
  have hnano := t.nano_lt
  have hleap := h.leap
  have hvalid : t.date.IsValid ∧ t.second / 3600 < 24 ∧ t.second / 60 % 60 < 60 ∧
      t.shownSecond ≤ 60 ∧ t.nano % 1000000000 < 1000000000 ∧ (0 : Int).natAbs < 86400 := by
    unfold shownSecond
    exact ⟨h.date, by omega, by omega, by omega, by omega, by decide⟩
  have hleapSecond : (if t.shownSecond = 60 then 1 else 0) = t.nano / 1000000000 := by
    unfold shownSecond
    split <;> omega
  have hclock : 3600 * ((t.second / 3600 : Nat) : Int) + 60 * ((t.second / 60 % 60 : Nat) : Int) +
      ((t.shownSecond - t.nano / 1000000000 : Nat) : Int) - 0 = t.second := by
    unfold shownSecond
    omega
  have hday : (t.second : Int).fdiv 86400 = 0 := by
    rw [Int.fdiv_eq_ediv_of_nonneg _ (by decide)]
    omega
  have hrest : ((t.second : Int).fmod 86400).toNat = t.second := by
    rw [Int.fmod_eq_emod_of_nonneg _ (by decide)]
    omega
  have hnumber : (⟨t.date.year, t.date.month, t.date.day⟩ : Date).dayNumber = t.day :=
    Date.dayNumber_ofDayNumber t.day
  have hsame : t.nano % 1000000000 + 1000000000 * (t.nano / 1000000000) = t.nano := by omega
  unfold Fields.instant? fields
  simp only [hleapSecond, hclock, hday, hrest, hnumber, hsame, Int.add_zero]
  rw [dif_pos hvalid]
  exact if_pos h.date

/-! ## Reading back -/

variable {t : Instant}

theorem fields?_rfc3339 (h : t.HasPlainYear) :
    Pattern.fields? Fields.none t.text.toList Pattern.rfc3339 = some t.fields := by
  obtain ⟨hmonth, hday, hhour, hminute, hsecond, hnano⟩ := t.fields_lt
  rw [toList_text, clockChars, Pattern.rfc3339, Pattern.fields?_cons (read_fullYear h),
    Pattern.fields?_cons (read_oneOf (by decide)), Pattern.fields?_cons (read_twoDigits hmonth _),
    Pattern.fields?_cons (read_oneOf (by decide)), Pattern.fields?_cons (read_twoDigits hday _),
    Pattern.fields?_cons (read_oneOf (by decide)), Pattern.fields?_cons (read_twoDigits hhour _),
    Pattern.fields?_cons (read_oneOf (by decide)), Pattern.fields?_cons (read_twoDigits hminute _),
    Pattern.fields?_cons (read_oneOf (by decide)), Pattern.fields?_cons (read_twoDigits hsecond _),
    Pattern.fields?_cons (read_fraction hnano rfl (endsDigits_cons (by decide) []) (by decide)),
    Pattern.fields?_cons read_offset_utc]
  rfl

theorem fields?_rfc3339_eq_none (h : ¬ t.HasPlainYear) :
    Pattern.fields? Fields.none t.text.toList Pattern.rfc3339 = none := by
  rw [toList_text, Pattern.rfc3339, Pattern.fields?_cons_eq_none (read_fullYear_eq_none h)]

/-- A pattern that lets blanks stand between the date and the clock stops at the `T`. -/
theorem fields?_plain_blanks :
    Pattern.fields? Fields.none t.text.toList (Pattern.plain .blanks) = none := by
  obtain ⟨hmonth, hday, -⟩ := t.fields_lt
  have hhour : ∀ f, (Item.number .hour).read f ('T' :: t.clockChars) = none := by
    intro f
    rw [Item.read, trimLeft_cons (by decide), digits?_cons_eq_none (by decide)]
    rfl
  rw [toList_text, Pattern.plain,
    Pattern.fields?_cons (read_year _ (endsDigits_cons (by decide) _)),
    Pattern.fields?_cons (read_oneOf (by decide)), Pattern.fields?_cons (read_number hmonth _),
    Pattern.fields?_cons (read_oneOf (by decide)), Pattern.fields?_cons (read_number hday _),
    Pattern.fields?_cons (read_blanks (by decide)), Pattern.fields?_cons_eq_none (hhour _)]

/-- A pattern without an offset leaves the `Z` over. -/
theorem fields?_plain_mark :
    Pattern.fields? Fields.none t.text.toList (Pattern.plain (.oneOf ['T'])) = none := by
  obtain ⟨hmonth, hday, hhour, hminute, hsecond, hnano⟩ := t.fields_lt
  rw [toList_text, clockChars, Pattern.plain,
    Pattern.fields?_cons (read_year _ (endsDigits_cons (by decide) _)),
    Pattern.fields?_cons (read_oneOf (by decide)), Pattern.fields?_cons (read_number hmonth _),
    Pattern.fields?_cons (read_oneOf (by decide)), Pattern.fields?_cons (read_number hday _),
    Pattern.fields?_cons (read_oneOf (by decide)), Pattern.fields?_cons (read_number hhour _),
    Pattern.fields?_cons (read_oneOf (by decide)), Pattern.fields?_cons (read_number hminute _),
    Pattern.fields?_cons (read_oneOf (by decide)), Pattern.fields?_cons (read_number hsecond _),
    Pattern.fields?_cons (read_fraction hnano rfl (endsDigits_cons (by decide) []) (by decide))]
  rfl

theorem fields?_zoned :
    Pattern.fields? Fields.none t.text.toList Pattern.zoned = some t.fields := by
  obtain ⟨hmonth, hday, hhour, hminute, hsecond, hnano⟩ := t.fields_lt
  rw [toList_text, clockChars, Pattern.zoned,
    Pattern.fields?_cons (read_year _ (endsDigits_cons (by decide) _)),
    Pattern.fields?_cons (read_blanks (by decide)),
    Pattern.fields?_cons (read_oneOf (by decide)), Pattern.fields?_cons (read_number hmonth _),
    Pattern.fields?_cons (read_blanks (by decide)),
    Pattern.fields?_cons (read_oneOf (by decide)), Pattern.fields?_cons (read_number hday _),
    Pattern.fields?_cons (read_oneOf (by decide)), Pattern.fields?_cons (read_number hhour _),
    Pattern.fields?_cons (read_blanks (by decide)),
    Pattern.fields?_cons (read_oneOf (by decide)), Pattern.fields?_cons (read_number hminute _),
    Pattern.fields?_cons (read_blanks (by decide)),
    Pattern.fields?_cons (read_oneOf (by decide)), Pattern.fields?_cons (read_number hsecond _),
    Pattern.fields?_cons (read_fraction hnano rfl (endsDigits_cons (by decide) []) (by decide)),
    Pattern.fields?_cons (read_blanks (by decide)), Pattern.fields?_cons read_looseOffset_utc]
  rfl

/-- A year begins with a digit or a sign. -/
theorem exists_yearText (year : Int) :
    ∃ c cs, (yearText year).toList = c :: cs ∧ isBlank c = false := by
  have hdigits := isDigits_zeroPadded 4 year.natAbs
  rw [toList_yearText]
  split
  · obtain ⟨c, cs, hcs⟩ := List.exists_cons_of_ne_nil hdigits.1
    rw [List.nil_append]
    exact ⟨c, cs, hcs, isBlank_eq_false_of_isDigit (hdigits.2 c (hcs ▸ List.mem_cons_self))⟩
  · split
    · exact ⟨'-', _, List.singleton_append, by decide⟩
    · exact ⟨'+', _, List.singleton_append, by decide⟩

theorem isTrimmed_text : IsTrimmed t.text.toList := by
  obtain ⟨c, cs, hyear, hblank⟩ := exists_yearText t.date.year
  have hlast : t.text.toList.getLast? = some 'Z' := by
    simp only [toList_text, clockChars, List.getLast?_append, List.getLast?_cons,
      List.getLast?_nil, Option.getD_none, Option.getD_some, Option.some_or]
  refine ⟨fun d hd => ?_, fun d hd => ?_⟩
  · rw [toList_text, hyear] at hd
    cases hd
    exact hblank
  · rw [hlast] at hd
    cases hd
    decide

end Instant

section Reading

variable {t : Instant}

/-- The reader of full records takes what is written for an instant, whatever its year. -/
theorem zonedTimestamp?_text (h : t.IsProper) : zonedTimestamp? t.text = some t := by
  rw [zonedTimestamp?, Pattern.instant?, Instant.fields?_zoned]
  exact Instant.instant?_fields h

/-- The reader of events takes what is written for an instant if its year has four digits and no
sign. -/
theorem timestamp?_text (h : t.IsProper) :
    timestamp? t.text = if t.HasPlainYear then some t else none := by
  have hblanks : (Pattern.plain .blanks).instant? t.text.toList = none := by
    rw [Pattern.instant?, Instant.fields?_plain_blanks]
    rfl
  have hmark : (Pattern.plain (.oneOf ['T'])).instant? t.text.toList = none := by
    rw [Pattern.instant?, Instant.fields?_plain_mark]
    rfl
  rw [timestamp?, trim_eq_self Instant.isTrimmed_text]
  split
  · next hplain =>
    have hread : Pattern.rfc3339.instant? t.text.toList = some t := by
      rw [Pattern.instant?, Instant.fields?_rfc3339 hplain]
      exact Instant.instant?_fields h
    simp only [List.findSome?_cons, hread]
  · next hplain =>
    have hread : Pattern.rfc3339.instant? t.text.toList = none := by
      rw [Pattern.instant?, Instant.fields?_rfc3339_eq_none hplain]
      rfl
    simp only [List.findSome?_cons, hread, hblanks, hmark, List.findSome?_nil]

end Reading

end Flowline.Time
