/-!
# Places in a YAML text

The classes of characters that YAML tells apart, and a `Cursor`: the text from some place on,
together with the line and column of the place. Lines end at a line feed, a carriage return, both
of them, or one of three Unicode line ends.
-/

namespace Flowline.Yaml

/-! ## Characters -/

/-- A character that may stand in a YAML text. -/
def isAllowed (c : Char) : Bool :=
  let n := c.toNat
  n == 9 || n == 0xA || n == 0xD || (0x20 ≤ n && n ≤ 0x7E) || n == 0x85 ||
    (0xA0 ≤ n && n ≤ 0xFFFD) || 0x10000 ≤ n

/-- A character that ends a line. -/
def isBreak (c : Char) : Bool :=
  c == '\n' || c == '\r' || c == '\u0085' || c == '\u2028' || c == '\u2029'

def isBlank (c : Char) : Bool := c == ' ' || c == '\t'

/-- A character of the names of anchors, tag handles and directives. -/
def isNameChar (c : Char) : Bool := c.isAlphanum || c == '_' || c == '-'

/-- The end of the text, or a blank or line end. -/
def endsWord : List Char → Bool
  | [] => true
  | c :: _ => isBlank c || isBreak c

/-- The line end that is kept of a line end: all but the last two become a line feed. -/
def keptBreak (c : Char) : Char := if c == '\u2028' || c == '\u2029' then c else '\n'

/-! ## Cursors -/

/-- The text from some place on, and the place. -/
structure Cursor where
  rest : List Char
  /-- The number of bytes before the place, in UTF-8. -/
  index : Nat
  line : Nat
  column : Nat
deriving DecidableEq

namespace Cursor

def start (text : List Char) : Cursor := ⟨text, 0, 0, 0⟩

/-- The number of bytes of the next `n` characters. -/
def bytesOf (c : Cursor) (n : Nat) : Nat := ((c.rest.take n).map Char.utf8Size).foldr (· + ·) 0

/-- The place after `n` characters of the line. -/
def skip (c : Cursor) (n : Nat) : Cursor :=
  ⟨c.rest.drop n, c.index + c.bytesOf n, c.line, c.column + n⟩

/-- The place after a line end. -/
def skipBreak (c : Cursor) : Cursor :=
  let n := if ['\r', '\n'].isPrefixOf c.rest then 2 else 1
  ⟨c.rest.drop n, c.index + c.bytesOf n, c.line + 1, 0⟩

/-- The place after the characters of the line for which `p` holds. -/
def skipWhile (c : Cursor) (p : Char → Bool) : Cursor := c.skip (c.rest.takeWhile p).length

/-- The place where the line ends. -/
def skipToBreak (c : Cursor) : Cursor := c.skipWhile fun d => !isBreak d

/-- The place after a byte order mark, which may begin a line and counts as a column of it. -/
def skipByteOrderMark (c : Cursor) : Cursor :=
  if c.column = 0 ∧ c.rest.head? = some '\ufeff' then c.skip 1 else c

/-- Blanks and a comment up to the end of the line, and the line end: nothing if anything else
stands there. -/
def skipRestOfLine? (c : Cursor) : Option Cursor :=
  let c := c.skipWhile isBlank
  let c := if c.rest.head? = some '#' then c.skipToBreak else c
  match c.rest with
  | [] => some c
  | d :: _ => if isBreak d then some c.skipBreak else none

/-- Whether the marker, a word of three characters at the start of a line, stands here. -/
def isAtMarker (c : Cursor) (marker : List Char) : Bool :=
  c.column == 0 && marker.isPrefixOf c.rest && endsWord (c.rest.drop marker.length)

/-- Whether a document begins or ends here. -/
def isAtDocumentMarker (c : Cursor) : Bool :=
  c.isAtMarker ['-', '-', '-'] || c.isAtMarker ['.', '.', '.']

end Cursor

/-! ## Gaps inside a scalar -/

/-- What stands between two words of a scalar: blanks of one line, or line ends. The first line
end may be escaped, and then does not count. -/
inductive Gap where
  | blanks (s : List Char)
  | breaks (first : Option Char) (more : List Char)
deriving DecidableEq

namespace Gap

def none : Gap := blanks []

/-- Whether a line has ended. -/
def hasBreak : Gap → Bool
  | blanks _ => false
  | breaks .. => true

/-- The gap with one more blank. Blanks at the start of a line do not count. -/
def addBlank (c : Char) : Gap → Gap
  | blanks s => blanks (s ++ [c])
  | gap => gap

/-- The gap with one more line end. Blanks before it do not count. -/
def addBreak (c : Char) : Gap → Gap
  | blanks _ => breaks (some (keptBreak c)) []
  | breaks first more => breaks first (more ++ [keptBreak c])

/-- What the gap reads as: one line end alone becomes a blank, of several the first is dropped. -/
def text : Gap → List Char
  | blanks s => s
  | breaks Option.none more => more
  | breaks (some c) more =>
    if c = '\n' then (if more = [] then [' '] else more) else c :: more

/-- Reads the blanks and line ends at a place on top of a gap. `refuse` says where a blank may not
stand at the start of a line. -/
def read? (refuse : Char → Nat → Bool) : Nat → Gap → Cursor → Option (Gap × Cursor)
  | 0, _, _ => Option.none
  | fuel + 1, gap, c =>
    match c.rest with
    | [] => some (gap, c)
    | d :: _ =>
      if isBlank d then
        if gap.hasBreak && refuse d c.column then Option.none
        else read? refuse fuel (gap.addBlank d) (c.skip 1)
      else if isBreak d then read? refuse fuel (gap.addBreak d) c.skipBreak
      else some (gap, c)

end Gap

end Flowline.Yaml
