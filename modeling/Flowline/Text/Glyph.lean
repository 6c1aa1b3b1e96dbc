/-!
# Bytes as text

Text that comes from outside is a list of glyphs: characters where the bytes are valid UTF-8 and
stray bytes where they are not. `Glyph.ofBytes` never fails; `characters?` succeeds exactly when
no byte was stray.
-/

namespace Flowline.Text

/-- A character, or a byte that belongs to none. -/
inductive Glyph where
  | char (c : Char)
  | stray (byte : UInt8)
deriving DecidableEq

namespace Glyph

/-- The glyphs of a text. -/
def ofString (s : String) : List Glyph := s.toList.map char

/-- The character, if it is one. -/
def char? : Glyph → Option Char
  | char c => some c
  | stray _ => none

/-- The number of bytes that the glyph takes up. -/
def size : Glyph → Nat
  | char c => c.utf8Size
  | stray _ => 1

/-- The bytes of the glyph. -/
def bytes : Glyph → List UInt8
  | char c => (String.singleton c).toUTF8.toList
  | stray byte => [byte]

/-- The text, if no byte is stray. -/
def characters? (gs : List Glyph) : Option (List Char) := gs.mapM char?

@[simp] theorem characters?_map_char (s : List Char) : characters? (s.map char) = some s := by
  induction s with
  | nil => rfl
  | cons c s ih =>
    simp only [characters?, List.map_cons, List.mapM_cons] at ih ⊢
    simp [ih, char?]

/-! ## Decoding -/

/-- The payload of a byte that continues a character. -/
def continuation? (b : UInt8) : Option Nat :=
  if 0x80 ≤ b ∧ b < 0xC0 then some (b.toNat - 0x80) else none

/-- The character with code point `n`, if there is one and it is at least `least`. -/
def scalar? (least n : Nat) : Option Char :=
  if least ≤ n ∧ n.isValidChar then some (Char.ofNat n) else none

/-- The character that begins with byte `a`, from the bytes after it, with the number of those
that it takes. Only the shortest encoding of a character counts. -/
def decodeFirst? (a : UInt8) (s : List UInt8) : Option (Char × Nat) :=
  if a < 0x80 then some (Char.ofNat a.toNat, 0)
  else if 0xC0 ≤ a ∧ a < 0xE0 then do
    let x ← continuation? (← s[0]?)
    let c ← scalar? 0x80 ((a.toNat - 0xC0) * 64 + x)
    return (c, 1)
  else if 0xE0 ≤ a ∧ a < 0xF0 then do
    let x ← continuation? (← s[0]?)
    let y ← continuation? (← s[1]?)
    let c ← scalar? 0x800 (((a.toNat - 0xE0) * 64 + x) * 64 + y)
    return (c, 2)
  else if 0xF0 ≤ a ∧ a < 0xF8 then do
    let x ← continuation? (← s[0]?)
    let y ← continuation? (← s[1]?)
    let z ← continuation? (← s[2]?)
    let c ← scalar? 0x10000 ((((a.toNat - 0xF0) * 64 + x) * 64 + y) * 64 + z)
    return (c, 3)
  else none

/-- The glyphs of the bytes, after passing over the first `taken` of them. -/
def decodeFrom : Nat → List UInt8 → List Glyph
  | _, [] => []
  | taken + 1, _ :: s => decodeFrom taken s
  | 0, a :: s =>
    match decodeFirst? a s with
    | some (c, taken) => char c :: decodeFrom taken s
    | none => stray a :: decodeFrom 0 s

/-- The glyphs of the bytes. -/
def ofBytes (bytes : List UInt8) : List Glyph := decodeFrom 0 bytes

end Glyph

end Flowline.Text
