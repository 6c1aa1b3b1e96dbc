import Flowline.Text.Printable

/-!
# Names in messages

A message shows a text that may hold anything, so some characters are escaped: the usual ones by
a letter, those that show nothing of their own by their code. `EscapeStyle` says which quotes are
escaped and where a mark that would join its predecessor is shown by its code.
-/

namespace Flowline.Text

/-- The choices of an escape. -/
structure EscapeStyle where
  singleQuote : Bool
  doubleQuote : Bool
  /-- Whether a grapheme extender is escaped everywhere, not only at the start. -/
  everyExtender : Bool

/-- Both quotes are escaped: the text stands in quotes of either kind. -/
def EscapeStyle.name : EscapeStyle := ⟨true, true, false⟩

/-- The text stands in double quotes. -/
def EscapeStyle.quoted : EscapeStyle := ⟨false, true, true⟩

/-- The code of a character in braces, in lower-case hexadecimal. -/
def codeEscape (c : Char) : List Char :=
  ['\\', 'u', '\x7b'] ++ Nat.toDigits 16 c.toNat ++ ['\x7d']

/-- A character as it is shown. `extenders` says whether a grapheme extender is escaped. -/
def EscapeStyle.escape (style : EscapeStyle) (extenders : Bool) (c : Char) : List Char :=
  match c with
  | '\x00' => ['\\', '0']
  | '\t' => ['\\', 't']
  | '\r' => ['\\', 'r']
  | '\n' => ['\\', 'n']
  | '\\' => ['\\', '\\']
  | '\'' => if style.singleQuote then ['\\', '\''] else ['\'']
  | '"' => if style.doubleQuote then ['\\', '"'] else ['"']
  | c =>
    if extenders && isGraphemeExtender c then codeEscape c
    else if isPrintable c then [c]
    else codeEscape c

/-- The text as it is shown. -/
def EscapeStyle.shown (style : EscapeStyle) (s : String) : String :=
  match s.toList with
  | [] => ""
  | c :: rest =>
    String.ofList (style.escape true c ++ rest.flatMap (style.escape style.everyExtender))

end Flowline.Text
