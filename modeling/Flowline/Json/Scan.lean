import Flowline.Json.Numeral
import Flowline.Json.StringToken

/-!
# Scanning a JSON text

`Document.scan` gives the shape of a text. A value takes at least one glyph and a list or an
object one more than its parts, so the length of the text bounds the steps.
-/

namespace Flowline.Json

open Text

/-- A blank of JSON. -/
def isJsonBlank : Glyph → Bool
  | .char c => c == ' ' || c == '\n' || c == '\t' || c == '\r'
  | .stray _ => false

def dropBlanks (s : List Glyph) : List Glyph := s.dropWhile isJsonBlank

/-- A word behind its first letter: what follows it. -/
def scanWord : List Char → List Glyph → Except Break (List Glyph)
  | [], s => .ok s
  | _ :: _, [] => .error .cutOff
  | c :: word, g :: s => if g = .char c then scanWord word s else .error .malformed

/-- The node of a word. -/
def wordNode (node : Node) : Except Break (List Glyph) → Node × Option (List Glyph)
  | .ok rest => (node, some rest)
  | .error b => (.word b, none)

mutual

/-- The value at the start of a text, and what follows it unless the value is broken. -/
def scanValue : Nat → List Glyph → Node × Option (List Glyph)
  | 0, _ => (.absent .malformed, none)
  | fuel + 1, s =>
    match dropBlanks s with
    | [] => (.absent .cutOff, none)
    | .stray _ :: _ => (.absent .malformed, none)
    | .char c :: rest =>
      if c = 'n' then wordNode .null (scanWord ['u', 'l', 'l'] rest)
      else if c = 't' then wordNode (.bool true) (scanWord ['r', 'u', 'e'] rest)
      else if c = 'f' then wordNode (.bool false) (scanWord ['a', 'l', 's', 'e'] rest)
      else if c = '"' then
        let (token, rest) := scanString rest
        (.text token, rest)
      else if c = '-' ∨ c.isDigit then
        let (token, rest) := scanNumeral (.char c :: rest)
        (.number token, rest)
      else if c = '[' then
        match dropBlanks rest with
        | [] => (.list (.broken .cutOff), none)
        | .char ']' :: rest => (.list .close, some rest)
        | rest =>
          let (items, rest) := scanItems fuel rest
          (.list items, rest)
      else if c = '\x7b' then
        match dropBlanks rest with
        | [] => (.object (.broken .cutOff), none)
        | .char '\x7d' :: rest => (.object .close, some rest)
        | .char '"' :: rest =>
          let (members, rest) := scanMember fuel rest
          (.object members, rest)
        | rest => (.object (.noKey (scanValue fuel rest).1), none)
      else (.absent .malformed, none)

/-- An item and all that follow it in the list. -/
def scanItems : Nat → List Glyph → Items × Option (List Glyph)
  | 0, _ => (.broken .malformed, none)
  | fuel + 1, s =>
    match scanValue fuel s with
    | (value, none) => (.item value (.broken .malformed), none)
    | (value, some rest) =>
      match dropBlanks rest with
      | [] => (.item value (.broken .cutOff), none)
      | .char ']' :: rest => (.item value .close, some rest)
      | .char ',' :: rest =>
        let (items, rest) := scanItems fuel rest
        (.item value items, rest)
      | _ => (.item value (.broken .malformed), none)

/-- A member behind the opening quote of its key, and all that follow it in the object. -/
def scanMember : Nat → List Glyph → Members × Option (List Glyph)
  | 0, _ => (.broken .malformed, none)
  | fuel + 1, s =>
    match scanString s with
    | (key, none) => (.member key (.absent .malformed) (.broken .malformed), none)
    | (key, some rest) =>
      match dropBlanks rest with
      | [] => (.member key (.absent .cutOff) (.broken .malformed), none)
      | .char ':' :: rest =>
        match scanValue fuel rest with
        | (value, none) => (.member key value (.broken .malformed), none)
        | (value, some rest) =>
          match dropBlanks rest with
          | [] => (.member key value (.broken .cutOff), none)
          | .char '\x7d' :: rest => (.member key value .close, some rest)
          | .char ',' :: rest =>
            match dropBlanks rest with
            | [] => (.member key value (.member .missing (.absent .cutOff) (.broken .cutOff)), none)
            | .char '"' :: rest =>
              let (members, rest) := scanMember fuel rest
              (.member key value members, rest)
            | _ => (.member key value (.broken .malformed), none)
          | _ => (.member key value (.broken .malformed), none)
      | _ => (.member key (.absent .malformed) (.broken .malformed), none)

end

/-- The shape of a text. -/
def Document.scan (s : List Glyph) : Document :=
  match scanValue (2 * s.length + 2) s with
  | (root, none) => ⟨root, false⟩
  | (root, some rest) => ⟨root, dropBlanks rest ≠ []⟩

end Flowline.Json
