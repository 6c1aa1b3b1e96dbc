import Flowline.Text.Integer
import Mathlib.Data.List.Induction

/-!
# Decimal literals

A literal of an integer is a sign, which may be left out unless the integer is negative, any number
of zeros, and the digits of the absolute value (`IsLiteral`). `integer?` reads the literals and
nothing else (`integer?_eq_some_iff`), and `int64?` those of the integers that 64 bits hold, among
them what `integerText` writes (`int64?_integerText`).
-/

namespace Flowline.Text

/-- Zeros, and then the digits of a number. -/
def IsNumeral (s : List Char) (n : Nat) : Prop :=
  ∃ zeros, s = List.replicate zeros '0' ++ Nat.toDigits 10 n

/-- A sign that an integer may have in front. -/
inductive IsSign : List Char → Int → Prop
  | none {n : Int} : 0 ≤ n → IsSign [] n
  | plus {n : Int} : 0 ≤ n → IsSign ['+'] n
  | minus {n : Int} : n ≤ 0 → IsSign ['-'] n

/-- A text that spells an integer. -/
def IsLiteral (s : List Char) (n : Int) : Prop :=
  ∃ sign digits, s = sign ++ digits ∧ IsSign sign n ∧ IsNumeral digits n.natAbs

/-! ## Digits -/

theorem digitChar_of_isDigit {c : Char} (h : c.isDigit = true) :
    c.toNat - '0'.toNat < 10 ∧ Nat.digitChar (c.toNat - '0'.toNat) = c := by
  obtain ⟨hlow, hhigh⟩ := Char.isDigit_iff_toNat.1 h
  have hzero : '0'.toNat = 48 := rfl
  have hnine : '9'.toNat = 57 := rfl
  have hlt : c.toNat - '0'.toNat < 10 := by omega
  refine ⟨hlt, Char.toNat_inj.1 ?_⟩
  rw [Nat.toNat_digitChar_of_lt_ten hlt]
  omega

theorem isNumeral_singleton {c : Char} (h : c.isDigit = true) :
    IsNumeral [c] (c.toNat - '0'.toNat) := by
  obtain ⟨hlt, hchar⟩ := digitChar_of_isDigit h
  refine ⟨0, ?_⟩
  rw [Nat.toDigits_of_lt_base hlt, hchar]
  rfl

theorem IsNumeral.concat {s : List Char} {n : Nat} (hs : IsNumeral s n) {c : Char}
    (h : c.isDigit = true) : IsNumeral (s ++ [c]) (10 * n + (c.toNat - '0'.toNat)) := by
  obtain ⟨zeros, rfl⟩ := hs
  obtain ⟨hlt, hchar⟩ := digitChar_of_isDigit h
  rcases Nat.eq_zero_or_pos n with rfl | hpos
  · -- The only digit of zero is one more zero in front of the new digit.
    have hzero : Nat.toDigits 10 0 = ['0'] := rfl
    refine ⟨zeros + 1, ?_⟩
    rw [Nat.mul_zero, Nat.zero_add, Nat.toDigits_of_lt_base hlt, hchar, hzero,
      List.replicate_succ']
  · refine ⟨zeros, ?_⟩
    have hdigits := Nat.toDigits_append_toDigits (b := 10) (by decide) hpos hlt
    rw [Nat.toDigits_of_lt_base hlt, hchar] at hdigits
    rw [List.append_assoc, hdigits]

theorem isNumeral_digitsValue {s : List Char} (hne : s ≠ []) (h : ∀ c ∈ s, c.isDigit = true) :
    IsNumeral s (digitsValue s) := by
  induction s using List.reverseRecOn with
  | nil => exact absurd rfl hne
  | append_singleton s c ih =>
    have hc : c.isDigit = true := h c (List.mem_append_right _ (List.mem_singleton_self c))
    have hvalue : digitsValue (s ++ [c]) = 10 * digitsValue s + (c.toNat - '0'.toNat) :=
      List.foldl_append
    rw [hvalue]
    by_cases hs : s = []
    · subst hs
      simpa [digitsValue] using isNumeral_singleton hc
    · exact (ih hs fun d hd => h d (List.mem_append_left _ hd)).concat hc

theorem digitsValue_of_isNumeral {s : List Char} {n : Nat} (h : IsNumeral s n) :
    digitsValue s = n := by
  obtain ⟨zeros, rfl⟩ := h
  rw [digitsValue, Nat.ofDigitChars_append, Nat.ofDigitChars_replicate_zero, Nat.mul_zero,
    Nat.ofDigitChars_ten_toDigits]

theorem natural?_eq_some_iff {s : List Char} {n : Nat} :
    natural? s = some n ↔ IsNumeral s n := by
  unfold natural?
  rw [Option.ite_none_right_eq_some, List.all_eq_true, Option.some_inj]
  constructor
  · rintro ⟨⟨hne, hdigits⟩, rfl⟩
    exact isNumeral_digitsValue hne hdigits
  · intro h
    refine ⟨?_, digitsValue_of_isNumeral h⟩
    obtain ⟨zeros, rfl⟩ := h
    refine ⟨List.append_ne_nil_of_right_ne_nil _ Nat.toDigits_ne_nil, ?_⟩
    intro c hc
    rcases List.mem_append.1 hc with hc | hc
    · rw [List.eq_of_mem_replicate hc]
      rfl
    · exact Nat.isDigit_of_mem_toDigits (by decide) (by decide) hc

/-! ## Signs -/

theorem integer?_minus (s : List Char) :
    integer? ('-' :: s) = (natural? s).map fun n : Nat => -(n : Int) := by
  rw [integer?]
  cases natural? s with
  | none => rfl
  | some n => rfl

theorem integer?_plus (s : List Char) :
    integer? ('+' :: s) = (natural? s).map fun n : Nat => (n : Int) := by
  rw [integer?]
  cases natural? s with
  | none => rfl
  | some n => rfl

theorem integer?_unsigned {s : List Char} (hminus : s.head? ≠ some '-')
    (hplus : s.head? ≠ some '+') :
    integer? s = (natural? s).map fun n : Nat => (n : Int) := by
  unfold integer?
  split
  · exact absurd rfl hminus
  · exact absurd rfl hplus
  · cases natural? s with
    | none => rfl
    | some n => rfl

/-- A numeral does not begin with a sign. -/
theorem IsNumeral.head {s : List Char} {n : Nat} (h : IsNumeral s n) {c : Char}
    (hc : s.head? = some c) : c.isDigit = true := by
  have hread := natural?_eq_some_iff.2 h
  unfold natural? at hread
  rw [Option.ite_none_right_eq_some, List.all_eq_true] at hread
  exact hread.1.2 c (List.mem_of_mem_head? hc)

theorem integer?_eq_some_iff {s : List Char} {n : Int} :
    integer? s = some n ↔ IsLiteral s n := by
  constructor
  · intro h
    by_cases hminus : s.head? = some '-'
    · obtain ⟨digits, rfl⟩ := List.head?_eq_some_iff.1 hminus
      rw [integer?_minus] at h
      obtain ⟨m, hm, rfl⟩ := Option.map_eq_some_iff.1 h
      refine ⟨['-'], digits, rfl, .minus (by omega), ?_⟩
      rw [Int.natAbs_neg, Int.natAbs_natCast]
      exact natural?_eq_some_iff.1 hm
    by_cases hplus : s.head? = some '+'
    · obtain ⟨digits, rfl⟩ := List.head?_eq_some_iff.1 hplus
      rw [integer?_plus] at h
      obtain ⟨m, hm, rfl⟩ := Option.map_eq_some_iff.1 h
      exact ⟨['+'], digits, rfl, .plus (by omega), natural?_eq_some_iff.1 hm⟩
    · rw [integer?_unsigned hminus hplus] at h
      obtain ⟨m, hm, rfl⟩ := Option.map_eq_some_iff.1 h
      exact ⟨[], s, rfl, .none (by omega), natural?_eq_some_iff.1 hm⟩
  · rintro ⟨sign, digits, rfl, hsign, hdigits⟩
    have hread := natural?_eq_some_iff.2 hdigits
    cases hsign with
    | none hn =>
      have hminus : digits.head? ≠ some '-' := fun hc => absurd (hdigits.head hc) (by decide)
      have hplus : digits.head? ≠ some '+' := fun hc => absurd (hdigits.head hc) (by decide)
      rw [List.nil_append, integer?_unsigned hminus hplus, hread, Option.map_some,
        Int.natAbs_of_nonneg hn]
    | plus hn =>
      rw [List.singleton_append, integer?_plus, hread, Option.map_some, Int.natAbs_of_nonneg hn]
    | minus hn =>
      have hvalue : -(n.natAbs : Int) = n := by omega
      rw [List.singleton_append, integer?_minus, hread, Option.map_some, hvalue]

theorem int64?_eq_some_iff {s : List Char} {n : Int} :
    int64? s = some n ↔ IsLiteral s n ∧ IsInt64 n := by
  rw [← integer?_eq_some_iff]
  unfold int64?
  rw [Option.bind_eq_some_iff]
  constructor
  · rintro ⟨m, hm, hsmall⟩
    rw [Option.ite_none_right_eq_some] at hsmall
    obtain ⟨hsmall, heq⟩ := hsmall
    cases heq
    exact ⟨hm, hsmall⟩
  · rintro ⟨hn, hsmall⟩
    exact ⟨n, hn, if_pos hsmall⟩

/-! ## Written integers -/

theorem toList_integerText (n : Int) :
    (integerText n).toList = (if n < 0 then ['-'] else []) ++ Nat.toDigits 10 n.natAbs := by
  unfold integerText
  rw [String.toList_append, Nat.toList_repr]
  split
  · rfl
  · rfl

theorem isLiteral_integerText (n : Int) : IsLiteral (integerText n).toList n := by
  rw [toList_integerText]
  split
  · next h => exact ⟨_, _, rfl, .minus (by omega), 0, rfl⟩
  · next h => exact ⟨_, _, rfl, .none (by omega), 0, rfl⟩

/-- An integer that 64 bits hold is read as it was written. -/
theorem int64?_integerText {n : Int} (h : IsInt64 n) : int64? (integerText n).toList = some n :=
  int64?_eq_some_iff.2 ⟨isLiteral_integerText n, h⟩

/-- What is written for an integer is a sign and digits. -/
theorem mem_integerText {n : Int} {c : Char} (h : c ∈ (integerText n).toList) :
    c = '-' ∨ c.isDigit = true := by
  rw [toList_integerText, List.mem_append] at h
  rcases h with h | h
  · left
    split at h
    · exact List.mem_singleton.1 h
    · cases h
  · right
    exact Nat.isDigit_of_mem_toDigits (by decide) (by decide) h

/-! ## Digits of base 16 -/

theorem hexValue?_hexDigit (n : Nat) : hexValue? (hexDigit n) = some (n % 16) := by
  have hdigits : ∀ m < 16, hexValue? (Nat.digitChar m) = some m := by decide
  exact hdigits _ (Nat.mod_lt _ (by decide))

end Flowline.Text
