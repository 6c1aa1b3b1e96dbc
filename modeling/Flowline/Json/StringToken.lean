import Flowline.Json.Node
import Flowline.Text.Glyph
import Flowline.Text.Integer

/-!
# Strings of JSON

A string is scanned from behind its opening quote, twice: `passString` finds its end and asks
only that escapes have the right form and that no control character stands in it; `readString`
also decodes it, so surrogates must come in pairs and no byte may be stray.
-/

namespace Flowline.Json

open Text

-- Escapes are made of these digits, so they come with the strings.
export Text (hexValue?)

/-- The value of four digits of base 16. -/
def fourHex? (a b c d : Glyph) : Option Nat := do
  let a ← hexValue? (← a.char?)
  let b ← hexValue? (← b.char?)
  let c ← hexValue? (← c.char?)
  let d ← hexValue? (← d.char?)
  return ((a * 16 + b) * 16 + c) * 16 + d

/-- What is wrong where four digits should stand and do not: a text of fewer than four bytes is
cut off. -/
def hexBreak (s : List Glyph) : Break :=
  if (s.map Glyph.size).foldr (· + ·) 0 < 4 then .cutOff else .malformed

/-- The character that a one-letter escape stands for. -/
def simpleEscape? : Glyph → Option Char
  | .char '"' => some '"'
  | .char '\\' => some '\\'
  | .char '/' => some '/'
  | .char 'b' => some '\x08'
  | .char 'f' => some '\x0c'
  | .char 'n' => some '\n'
  | .char 'r' => some '\r'
  | .char 't' => some '\t'
  | _ => none

/-- A control character, which may not stand in a string as itself. -/
def isControl : Glyph → Bool
  | .char c => c.toNat < 0x20
  | .stray _ => false

/-- What follows the string, if its form is right. -/
def passString : List Glyph → Except Break (List Glyph)
  | [] => .error .cutOff
  | .char '"' :: rest => .ok rest
  | .char '\\' :: .char 'u' :: a :: b :: c :: d :: rest =>
    match fourHex? a b c d with
    | some _ => passString rest
    | none => .error (hexBreak (a :: b :: c :: d :: rest))
  | .char '\\' :: .char 'u' :: rest => .error (hexBreak rest)
  | [.char '\\'] => .error .cutOff
  | .char '\\' :: g :: rest =>
    match simpleEscape? g with
    | some _ => passString rest
    | none => .error .malformed
  | g :: rest => if isControl g then .error .malformed else passString rest

def isHighSurrogate (n : Nat) : Bool := 0xD800 ≤ n && n < 0xDC00

def isLowSurrogate (n : Nat) : Bool := 0xDC00 ≤ n && n < 0xE000

/-- The character of a pair of surrogates. -/
def surrogatePair (high low : Nat) : Char :=
  Char.ofNat ((high - 0xD800) * 0x400 + (low - 0xDC00) + 0x10000)

/-- What is wrong behind a high surrogate that no low one follows. -/
def pairBreak : List Glyph → Break
  | [] => .cutOff
  | [.char '\\'] => .cutOff
  | .char '\\' :: .char 'u' :: rest => hexBreak rest
  | _ => .malformed

/-- The glyphs of the string, escapes decoded; stray bytes are left in. -/
def readString : List Glyph → Except Break (List Glyph)
  | [] => .error .cutOff
  | .char '"' :: _ => .ok []
  | .char '\\' :: .char 'u' :: a :: b :: c :: d :: rest =>
    match fourHex? a b c d with
    | none => .error (hexBreak (a :: b :: c :: d :: rest))
    | some n =>
      if isLowSurrogate n then .error .malformed
      else if isHighSurrogate n then
        match rest with
        | .char '\\' :: .char 'u' :: a :: b :: c :: d :: rest' =>
          match fourHex? a b c d with
          | none => .error (hexBreak (a :: b :: c :: d :: rest'))
          | some m =>
            if isLowSurrogate m then (readString rest').map (.char (surrogatePair n m) :: ·)
            else .error .malformed
        | rest => .error (pairBreak rest)
      else (readString rest).map (.char (Char.ofNat n) :: ·)
  | .char '\\' :: .char 'u' :: rest => .error (hexBreak rest)
  | [.char '\\'] => .error .cutOff
  | .char '\\' :: g :: rest =>
    match simpleEscape? g with
    | some c => (readString rest).map (.char c :: ·)
    | none => .error .malformed
  | g :: rest => if isControl g then .error .malformed else (readString rest).map (g :: ·)

/-- The text of the string. Stray bytes count only once its end is found. -/
def readText (s : List Glyph) : Except Break String := do
  let glyphs ← readString s
  match Glyph.characters? glyphs with
  | some cs => return String.ofList cs
  | none => throw .malformed

/-- The string behind an opening quote and what follows it. -/
def scanString (s : List Glyph) : Token String × Option (List Glyph) :=
  match passString s with
  | .ok rest => (⟨readText s, none⟩, some rest)
  | .error b => (⟨readText s, some b⟩, none)

end Flowline.Json
