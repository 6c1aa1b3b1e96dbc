import Flowline.Text.Glyph

/-!
# Encoded characters are decoded again

The bytes of a character are decoded as that character, whatever follows them (`decodeFrom_encode`),
so the glyphs of the bytes of a text are the characters of the text (`ofBytes_toUTF8`).
-/

namespace Flowline.Text.Glyph

/-! ## Bytes -/

theorem toList_byteArray (b : ByteArray) : b.toList = b.data.toList := by
  have hloop : ∀ i r, ByteArray.toList.loop b i r = r.reverse ++ b.data.toList.drop i := by
    intro i r
    induction i, r using ByteArray.toList.loop.induct b with
    | case1 i r hi ih =>
      have hi' : i < b.data.toList.length := by simpa using hi
      rw [ByteArray.toList.loop, if_pos hi, ih, List.reverse_cons, List.append_assoc,
        List.drop_eq_getElem_cons hi']
      have hget : b.get! i = b.data.toList[i] := by
        show b.data[i]! = _
        rw [getElem!_pos b.data i (by simpa using hi'), Array.getElem_toList]
      rw [hget]
      rfl
    | case2 i r hi =>
      have hi' : b.data.toList.length ≤ i := by simpa using hi
      rw [ByteArray.toList.loop, if_neg hi, List.drop_eq_nil_of_le hi', List.append_nil]
  exact (hloop 0 []).trans rfl

/-! ## One character -/

theorem continuation?_byte {n : Nat} (h : n < 64) :
    continuation? (UInt8.ofNat (n + 128)) = some n := by
  have hbyte : n + 128 < 256 := by omega
  have hrange : 0x80 ≤ UInt8.ofNat (n + 128) ∧ UInt8.ofNat (n + 128) < 0xC0 :=
    ⟨(UInt8.le_ofNat_iff hbyte).2 (Nat.le_add_left 128 n),
      (UInt8.ofNat_lt_iff hbyte).2 (show n + 128 < 192 by omega)⟩
  rw [continuation?, if_pos hrange, UInt8.toNat_ofNat_of_lt' hbyte]
  exact congrArg some (Nat.add_sub_cancel n 128)

section Decode

variable {x y z w : Nat} {c : Char} (rest : List UInt8)

theorem decodeFirst?_one (hx : x < 128) :
    decodeFirst? (UInt8.ofNat x) rest = some (Char.ofNat x, 0) := by
  have hbyte : x < 256 := by omega
  have hlt : UInt8.ofNat x < 0x80 := (UInt8.ofNat_lt_iff hbyte).2 hx
  rw [decodeFirst?, if_pos hlt, UInt8.toNat_ofNat_of_lt' hbyte]

theorem decodeFirst?_two (hx : x < 32) (hy : y < 64) (hc : scalar? 0x80 (x * 64 + y) = some c) :
    decodeFirst? (UInt8.ofNat (x + 192)) (UInt8.ofNat (y + 128) :: rest) = some (c, 1) := by
  have hbyte : x + 192 < 256 := by omega
  have hlead : 0xC0 ≤ UInt8.ofNat (x + 192) ∧ UInt8.ofNat (x + 192) < 0xE0 :=
    ⟨(UInt8.le_ofNat_iff hbyte).2 (Nat.le_add_left 192 x),
      (UInt8.ofNat_lt_iff hbyte).2 (show x + 192 < 224 by omega)⟩
  have hone : ¬ UInt8.ofNat (x + 192) < 0x80 :=
    mt (UInt8.ofNat_lt_iff hbyte).1 (show ¬ x + 192 < 128 by omega)
  have hvalue : (UInt8.ofNat (x + 192)).toNat - 0xC0 = x := by
    rw [UInt8.toNat_ofNat_of_lt' hbyte, Nat.add_sub_cancel]
  rw [decodeFirst?, if_neg hone, if_pos hlead, hvalue]
  simp only [List.getElem?_cons_zero, Option.bind_eq_bind, Option.bind_some,
    continuation?_byte hy, hc, Option.pure_def]

theorem decodeFirst?_three (hx : x < 16) (hy : y < 64) (hz : z < 64)
    (hc : scalar? 0x800 ((x * 64 + y) * 64 + z) = some c) :
    decodeFirst? (UInt8.ofNat (x + 224)) (UInt8.ofNat (y + 128) :: UInt8.ofNat (z + 128) :: rest) =
      some (c, 2) := by
  have hbyte : x + 224 < 256 := by omega
  have hlead : 0xE0 ≤ UInt8.ofNat (x + 224) ∧ UInt8.ofNat (x + 224) < 0xF0 :=
    ⟨(UInt8.le_ofNat_iff hbyte).2 (Nat.le_add_left 224 x),
      (UInt8.ofNat_lt_iff hbyte).2 (show x + 224 < 240 by omega)⟩
  have hone : ¬ UInt8.ofNat (x + 224) < 0x80 :=
    mt (UInt8.ofNat_lt_iff hbyte).1 (show ¬ x + 224 < 128 by omega)
  have htwo : ¬ (0xC0 ≤ UInt8.ofNat (x + 224) ∧ UInt8.ofNat (x + 224) < 0xE0) :=
    fun h => absurd ((UInt8.ofNat_lt_iff hbyte).1 h.2) (show ¬ x + 224 < 224 by omega)
  have hvalue : (UInt8.ofNat (x + 224)).toNat - 0xE0 = x := by
    rw [UInt8.toNat_ofNat_of_lt' hbyte, Nat.add_sub_cancel]
  rw [decodeFirst?, if_neg hone, if_neg htwo, if_pos hlead, hvalue]
  simp only [List.getElem?_cons_zero, List.getElem?_cons_succ, Option.bind_eq_bind,
    Option.bind_some, continuation?_byte hy, continuation?_byte hz, hc, Option.pure_def]

theorem decodeFirst?_four (hx : x < 8) (hy : y < 64) (hz : z < 64) (hw : w < 64)
    (hc : scalar? 0x10000 (((x * 64 + y) * 64 + z) * 64 + w) = some c) :
    decodeFirst? (UInt8.ofNat (x + 240)) (UInt8.ofNat (y + 128) :: UInt8.ofNat (z + 128) ::
      UInt8.ofNat (w + 128) :: rest) = some (c, 3) := by
  have hbyte : x + 240 < 256 := by omega
  have hlead : 0xF0 ≤ UInt8.ofNat (x + 240) ∧ UInt8.ofNat (x + 240) < 0xF8 :=
    ⟨(UInt8.le_ofNat_iff hbyte).2 (Nat.le_add_left 240 x),
      (UInt8.ofNat_lt_iff hbyte).2 (show x + 240 < 248 by omega)⟩
  have hone : ¬ UInt8.ofNat (x + 240) < 0x80 :=
    mt (UInt8.ofNat_lt_iff hbyte).1 (show ¬ x + 240 < 128 by omega)
  have htwo : ¬ (0xC0 ≤ UInt8.ofNat (x + 240) ∧ UInt8.ofNat (x + 240) < 0xE0) :=
    fun h => absurd ((UInt8.ofNat_lt_iff hbyte).1 h.2) (show ¬ x + 240 < 224 by omega)
  have hthree : ¬ (0xE0 ≤ UInt8.ofNat (x + 240) ∧ UInt8.ofNat (x + 240) < 0xF0) :=
    fun h => absurd ((UInt8.ofNat_lt_iff hbyte).1 h.2) (show ¬ x + 240 < 240 by omega)
  have hvalue : (UInt8.ofNat (x + 240)).toNat - 0xF0 = x := by
    rw [UInt8.toNat_ofNat_of_lt' hbyte, Nat.add_sub_cancel]
  rw [decodeFirst?, if_neg hone, if_neg htwo, if_neg hthree, if_pos hlead, hvalue]
  simp only [List.getElem?_cons_zero, List.getElem?_cons_succ, Option.bind_eq_bind,
    Option.bind_some, continuation?_byte hy, continuation?_byte hz, continuation?_byte hw, hc,
    Option.pure_def]

end Decode

theorem scalar?_val {least n : Nat} {c : Char} (h : least ≤ n) (hn : c.val.toNat = n) :
    scalar? least n = some c := by
  subst hn
  have hvalid : c.val.toNat.isValidChar := c.valid
  rw [scalar?, if_pos ⟨h, hvalid⟩]
  exact congrArg some (Char.ofNat_toNat c)

/-- The first byte of a character and those behind it give the character back. -/
theorem decodeFirst?_encode (c : Char) (rest : List UInt8) :
    ∃ a s, String.utf8EncodeChar c = a :: s ∧ decodeFirst? a (s ++ rest) = some (c, s.length) := by
  have hmax : c.val.toNat < 0x110000 := by
    have := c.valid
    unfold UInt32.isValidChar Nat.isValidChar at this
    omega
  unfold String.utf8EncodeChar
  dsimp only
  split
  · next h =>
    refine ⟨_, _, rfl, (decodeFirst?_one _ (Nat.lt_succ_of_le h)).trans ?_⟩
    exact congrArg (fun c => some (c, 0)) (Char.ofNat_toNat c)
  · split
    · next h₀ h₁ =>
      exact ⟨_, _, rfl, decodeFirst?_two rest (Nat.mod_lt _ (by decide)) (Nat.mod_lt _ (by decide))
        (scalar?_val (by omega) (by omega))⟩
    · split
      · next h₀ h₁ h₂ =>
        exact ⟨_, _, rfl, decodeFirst?_three rest (Nat.mod_lt _ (by decide))
          (Nat.mod_lt _ (by decide)) (Nat.mod_lt _ (by decide))
          (scalar?_val (by omega) (by omega))⟩
      · next h₀ h₁ h₂ =>
        exact ⟨_, _, rfl, decodeFirst?_four rest (Nat.mod_lt _ (by decide))
          (Nat.mod_lt _ (by decide)) (Nat.mod_lt _ (by decide)) (Nat.mod_lt _ (by decide))
          (scalar?_val (by omega) (by omega))⟩

/-! ## Texts -/

theorem decodeFrom_length_append (s rest : List UInt8) :
    decodeFrom s.length (s ++ rest) = decodeFrom 0 rest := by
  induction s with
  | nil => rfl
  | cons a s ih => exact ih

/-- The bytes of a character are decoded as the character. -/
theorem decodeFrom_encode (c : Char) (rest : List UInt8) :
    decodeFrom 0 (String.utf8EncodeChar c ++ rest) = char c :: decodeFrom 0 rest := by
  obtain ⟨a, s, hbytes, hfirst⟩ := decodeFirst?_encode c rest
  rw [hbytes, List.cons_append, decodeFrom, hfirst]
  exact congrArg (char c :: ·) (decodeFrom_length_append s rest)

/-- The glyphs of the bytes of a text are its characters. -/
theorem ofBytes_toUTF8 (s : String) : ofBytes s.toUTF8.toList = ofString s := by
  have hbytes : s.toUTF8.toList = s.toList.flatMap String.utf8EncodeChar := by
    rw [toList_byteArray, String.toUTF8, ← String.utf8Encode_toList, List.utf8Encode,
      List.data_toByteArray]
  rw [hbytes, ofBytes, ofString]
  induction s.toList with
  | nil => rfl
  | cons c cs ih => rw [List.flatMap_cons, decodeFrom_encode, ih, List.map_cons]

end Flowline.Text.Glyph
