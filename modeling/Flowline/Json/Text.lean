import Flowline.Json.Value
import Flowline.Text.Integer

/-!
# Writing JSON

`Json.compact` writes a value without any space, `Json.pretty` with one member or item a line,
two spaces deeper per level. Both escape in strings the quote, the backslash and the control
characters below the blank, and nothing else.
-/

namespace Flowline.Json

open Text (hexDigit)

/-! ## Strings -/

/-- A character as it stands inside the quotes. -/
def escape (c : Char) : List Char :=
  match c with
  | '"' => ['\\', '"']
  | '\\' => ['\\', '\\']
  | '\n' => ['\\', 'n']
  | '\r' => ['\\', 'r']
  | '\t' => ['\\', 't']
  | '\x08' => ['\\', 'b']
  | '\x0c' => ['\\', 'f']
  | c =>
    if c.toNat < 0x20 then ['\\', 'u', '0', '0', hexDigit (c.toNat / 16), hexDigit c.toNat] else [c]

/-- A text in quotes. -/
def quoted (s : String) : List Char := '"' :: s.toList.flatMap escape ++ ['"']

/-! ## Numbers -/

/-- A number as it is written: integers in decimal, floats by their shortest decimal. -/
def numeral : Number → List Char
  | .integer n => (Text.integerText n).toList
  | .float x => x.text.toList

/-! ## Values -/

mutual

/-- The characters of a value, without any space. -/
def compactChars : Json → List Char
  | null => ['n', 'u', 'l', 'l']
  | bool true => ['t', 'r', 'u', 'e']
  | bool false => ['f', 'a', 'l', 's', 'e']
  | number n => numeral n
  | text s => quoted s
  | list [] => ['[', ']']
  | list (x :: xs) => '[' :: compactChars x ++ compactItems xs
  | object [] => ['\x7b', '\x7d']
  | object ((k, x) :: xs) => '\x7b' :: quoted k ++ ':' :: compactChars x ++ compactMembers xs

/-- The items after the first, and the end of the list. -/
def compactItems : List Json → List Char
  | [] => [']']
  | x :: xs => ',' :: compactChars x ++ compactItems xs

/-- The members after the first, and the end of the object. -/
def compactMembers : List (String × Json) → List Char
  | [] => ['\x7d']
  | (k, x) :: xs => ',' :: quoted k ++ ':' :: compactChars x ++ compactMembers xs

end

/-- A new line at a depth. -/
def newLine (depth : Nat) : List Char := '\n' :: List.replicate (2 * depth) ' '

mutual

/-- The characters of a value, laid out over lines, the first of which begins at `depth`. -/
def prettyChars (depth : Nat) : Json → List Char
  | null => ['n', 'u', 'l', 'l']
  | bool true => ['t', 'r', 'u', 'e']
  | bool false => ['f', 'a', 'l', 's', 'e']
  | number n => numeral n
  | text s => quoted s
  | list [] => ['[', ']']
  | list (x :: xs) =>
    '[' :: newLine (depth + 1) ++ prettyChars (depth + 1) x ++ prettyItems depth xs
  | object [] => ['\x7b', '\x7d']
  | object ((k, x) :: xs) =>
    '\x7b' :: newLine (depth + 1) ++ quoted k ++ ':' :: ' ' :: prettyChars (depth + 1) x ++
      prettyMembers depth xs

/-- The items after the first, and the end of the list. -/
def prettyItems (depth : Nat) : List Json → List Char
  | [] => newLine depth ++ [']']
  | x :: xs => ',' :: newLine (depth + 1) ++ prettyChars (depth + 1) x ++ prettyItems depth xs

/-- The members after the first, and the end of the object. -/
def prettyMembers (depth : Nat) : List (String × Json) → List Char
  | [] => newLine depth ++ ['\x7d']
  | (k, x) :: xs =>
    ',' :: newLine (depth + 1) ++ quoted k ++ ':' :: ' ' :: prettyChars (depth + 1) x ++
      prettyMembers depth xs

end

/-- The value without any space. -/
def compact (x : Json) : String := String.ofList x.compactChars

/-- The value laid out over lines. -/
def pretty (x : Json) : String := String.ofList (x.prettyChars 0)

end Flowline.Json
