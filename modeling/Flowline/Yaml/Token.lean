import Flowline.Text.Glyph
import Flowline.Yaml.Scalar

/-!
# Tokens of YAML

`Token.scan?` cuts a text into tokens, or nothing if that is not possible. Blocks have no brackets
of their own, so the scanner keeps a stack of indentations and puts tokens where blocks begin and
end. A key is only recognised by the colon behind it: the scanner remembers the places where a key
may have begun (`Candidate`), and once all tokens are known the key tokens are woven in at the
places that turned out to be keys.
-/

namespace Flowline.Yaml

open Text (Glyph hexValue?)

/-- A tag as it is written: the handle, and what follows it with its escapes decoded. -/
structure Tag where
  handle : List Char
  suffix : List Glyph
deriving DecidableEq

inductive Token where
  | versionDirective (major minor : Nat)
  | tagDirective (handle : List Char) (lead : List Glyph)
  | documentStart
  | documentEnd
  | blockSequenceStart
  | blockMappingStart
  | blockEnd
  | flowSequenceStart
  | flowSequenceEnd
  | flowMappingStart
  | flowMappingEnd
  | blockEntry
  | flowEntry
  | key
  | value
  | alias (name : List Char)
  | anchor (name : List Char)
  | tag (t : Tag)
  | scalar (style : Style) (text : List Char)
deriving DecidableEq

/-! ## Names, tags and directives -/

/-- A character that may stand behind the name of an anchor. -/
def endsAnchor : List Char → Bool
  | [] => true
  | c :: rest => endsWord (c :: rest) || ['?', ':', ',', ']', '\x7d', '%', '@', '\x60'].contains c

/-- The name of an anchor, and the place after it. -/
def anchorName? (c : Cursor) : Option (List Char × Cursor) :=
  let name := c.rest.takeWhile isNameChar
  let after := c.skip name.length
  if name ≠ [] ∧ endsAnchor after.rest then some (name, after) else none

/-- A character of a tag; inside angle brackets there are more of them. -/
def isTagChar (verbatim : Bool) (c : Char) : Bool :=
  isNameChar c ||
    [';', '/', '?', ':', '@', '&', '=', '+', '$', '.', '%', '!', '~', '*', '\'', '(', ')'].contains
      c ||
    (verbatim && [',', '[', ']'].contains c)

/-- How many bytes follow the first one of a character. -/
def bytesAfter? (lead : Nat) : Option Nat :=
  if lead < 0x80 then some 0
  else if lead < 0xC0 then none
  else if lead < 0xE0 then some 1
  else if lead < 0xF0 then some 2
  else if lead < 0xF8 then some 3
  else none

/-- The bytes of a tag, a percent sign and two digits read as one byte. The escapes of a character
stand together, with as many bytes as its first one asks for; `due` are still to come. Which
character they encode is not looked at, so it need not exist. -/
def tagBytes? (due : Nat) : List Char → Option (List UInt8)
  | [] => if due = 0 then some [] else none
  | '%' :: high :: low :: s => do
    let byte := 16 * (← hexValue? high) + (← hexValue? low)
    let due ←
      if due = 0 then bytesAfter? byte
      else if 0x80 ≤ byte ∧ byte < 0xC0 then some (due - 1)
      else none
    return UInt8.ofNat byte :: (← tagBytes? due s)
  | c :: s =>
    if due = 0 ∧ c ≠ '%' then (tagBytes? 0 s).map ((String.singleton c).toUTF8.toList ++ ·)
    else none

/-- The text of a tag with its escapes decoded. It ends in front of a character of code 0. -/
def tagText? (s : List Char) : Option (List Glyph) := do
  return (Glyph.ofBytes (← tagBytes? 0 s)).takeWhile (· ≠ .char '\x00')

/-- The handle at the start: an exclamation mark, or a name between two of them. -/
def tagHandle? (s : List Char) : Option (List Char) :=
  match s with
  | '!' :: s =>
    let name := s.takeWhile isNameChar
    if (s.drop name.length).head? = some '!' then some ('!' :: name ++ ['!'])
    else some ('!' :: name)
  | _ => none

/-- A tag, and the place after it. -/
def tag? (inFlow : Bool) (c : Cursor) : Option (Tag × Cursor) := do
  let (tag, after) ←
    if (c.rest.drop 1).head? = some '<' then do
      let raw := (c.rest.drop 2).takeWhile (isTagChar true)
      let after := c.skip (2 + raw.length)
      if raw = [] ∨ after.rest.head? ≠ some '>' then none
      let suffix ← tagText? raw
      some (⟨[], suffix⟩, after.skip 1)
    else do
      let handle ← tagHandle? c.rest
      let raw := (c.rest.drop handle.length).takeWhile (isTagChar false)
      let after := c.skip (handle.length + raw.length)
      let suffix ← tagText? raw
      if 1 < handle.length ∧ handle.getLast? = some '!' then
        if raw = [] then none else some ((⟨handle, suffix⟩ : Tag), after)
      else
        let suffix := (handle.drop 1).map .char ++ suffix
        some (if suffix = [] then ⟨[], [.char '!']⟩ else ⟨['!'], suffix⟩, after)
  if endsWord after.rest ∨ (inFlow ∧ after.rest.head? = some ',') then return (tag, after) else none

/-- A number of a version, at most nine digits. -/
def versionNumber? (s : List Char) : Option (Nat × Nat) :=
  let digits := s.takeWhile Char.isDigit
  if digits ≠ [] ∧ digits.length ≤ 9 then
    some (digits.foldl (fun n c => 10 * n + (c.toNat - '0'.toNat)) 0, digits.length)
  else none

/-- A directive, and the place of the line after it. -/
def directive? (c : Cursor) : Option (Token × Cursor) := do
  let c := c.skip 1
  let name := c.rest.takeWhile isNameChar
  let c := c.skip name.length
  if !endsWord c.rest then none
  let c := c.skipWhile isBlank
  if name = ['Y', 'A', 'M', 'L'] then
    let (major, n) ← versionNumber? c.rest
    let c := c.skip n
    if c.rest.head? ≠ some '.' then none
    let (minor, n) ← versionNumber? (c.rest.drop 1)
    let c ← (c.skip (n + 1)).skipRestOfLine?
    return (.versionDirective major minor, c)
  else if name = ['T', 'A', 'G'] then
    let handle ← tagHandle? c.rest
    if handle ≠ ['!'] ∧ handle.getLast? ≠ some '!' then none
    let c := c.skip handle.length
    if !(c.rest.head?.any isBlank) then none
    let c := c.skipWhile isBlank
    let raw := c.rest.takeWhile (isTagChar true)
    let c := c.skip raw.length
    if raw = [] ∨ !endsWord c.rest then none
    let lead ← tagText? raw
    let c ← c.skipRestOfLine?
    return (.tagDirective handle lead, c)
  else none

/-! ## The scanner -/

/-- A place where a key may have begun. -/
structure Candidate where
  /-- The number of tokens before it. -/
  tokens : Nat
  /-- It stands where the block it is in goes on, so it can only be a key. -/
  required : Bool
  index : Nat
  line : Nat
  column : Nat
deriving DecidableEq

/-- A place that turned out to be a key. -/
structure KeyPlace where
  tokens : Nat
  /-- The key is the first one of a block. -/
  opensBlock : Bool
deriving DecidableEq

/-- What the scanner knows at a place. -/
structure Scanner where
  cursor : Cursor
  /-- The tokens so far, the last one first. -/
  tokens : List Token
  keyPlaces : List KeyPlace
  /-- The column of the current block, and of those around it. -/
  indent : Int
  indents : List Int
  /-- Whether a key may begin here. -/
  keyAllowed : Bool
  /-- The last place where a key may have begun, per level of brackets, innermost first. -/
  candidates : List (Option Candidate)
deriving DecidableEq

namespace Scanner

def start (text : List Char) : Scanner := ⟨.start text, [], [], -1, [], true, [none]⟩

/-- Whether the place is inside brackets. -/
def inFlow (s : Scanner) : Bool := 1 < s.candidates.length

def emit (s : Scanner) (t : Token) : Scanner := { s with tokens := t :: s.tokens }

def allowKey (s : Scanner) (allowed : Bool) : Scanner := { s with keyAllowed := allowed }

/-- Forgets the candidates that are too far back: on another line, or more than 1024 bytes away. A
candidate that can only be a key is an error then. -/
def dropStale? (s : Scanner) : Option Scanner := do
  let check (candidate : Option Candidate) : Option (Option Candidate) :=
    match candidate with
    | none => some none
    | some k =>
      if k.line < s.cursor.line ∨ k.index + 1024 < s.cursor.index then
        if k.required then none else some none
      else some (some k)
  return { s with candidates := ← s.candidates.mapM check }

/-- Gives up the candidate of the innermost level. -/
def dropCandidate? (s : Scanner) : Option Scanner :=
  match s.candidates with
  | some k :: rest => if k.required then none else some { s with candidates := none :: rest }
  | _ => some s

/-- Remembers that a key may begin here. -/
def saveCandidate? (s : Scanner) : Option Scanner := do
  if !s.keyAllowed then return s
  let s ← s.dropCandidate?
  let c := s.cursor
  let required := !s.inFlow && s.indent == c.column
  let k : Candidate := ⟨s.tokens.length, required, c.index, c.line, c.column⟩
  return { s with candidates := some k :: s.candidates.drop 1 }

/-- Ends the blocks that are indented deeper than a column. -/
def closeBlocks (column : Int) : Nat → Scanner → Scanner
  | 0, s => s
  | fuel + 1, s =>
    if s.indent ≤ column then s
    else closeBlocks column fuel
      { s.emit .blockEnd with indent := s.indents.headD (-1), indents := s.indents.drop 1 }

/-- Ends the blocks that are indented deeper than a column. Inside brackets there are none. -/
def unroll (s : Scanner) (column : Int) : Scanner :=
  if s.inFlow then s else closeBlocks column (s.indents.length + 1) s

/-- Whether a block begins at a column. -/
def opensBlock (s : Scanner) (column : Nat) : Bool := !s.inFlow && s.indent < column

/-- Makes a column that of a new block. -/
def indentTo (s : Scanner) (column : Nat) : Scanner :=
  if s.opensBlock column then { s with indent := column, indents := s.indent :: s.indents } else s

/-- Begins a block at the current column, if one begins there. -/
def roll (s : Scanner) (t : Token) : Scanner :=
  if s.opensBlock s.cursor.column then (s.indentTo s.cursor.column).emit t else s

/-- Skips characters that have become part of a token. -/
def skip (s : Scanner) (n : Nat) : Scanner := { s with cursor := s.cursor.skip n }

/-- Passes over byte order marks that begin a line, blanks, comments and line ends. A tab may not
stand where a key may begin in a block. -/
def skipGap : Nat → Scanner → Scanner
  | 0, s => s
  | fuel + 1, s =>
    let tabs := s.inFlow || !s.keyAllowed
    let c := s.cursor.skipByteOrderMark.skipWhile fun d => d == ' ' || (tabs && d == '\t')
    let c := if c.rest.head? = some '#' then c.skipToBreak else c
    if c.rest.head?.any isBreak then
      skipGap fuel { s with cursor := c.skipBreak, keyAllowed := s.keyAllowed || !s.inFlow }
    else { s with cursor := c }

/-! ### One token -/

/-- The end of the text. -/
def finish? (s : Scanner) : Option Scanner := (s.unroll (-1)).dropCandidate?

def scanDirective? (s : Scanner) : Option Scanner := do
  let s ← (s.unroll (-1)).dropCandidate?
  let (token, c) ← directive? s.cursor
  return { (s.allowKey false).emit token with cursor := c }

def scanDocumentMarker? (s : Scanner) (t : Token) : Option Scanner := do
  let s ← (s.unroll (-1)).dropCandidate?
  return ((s.allowKey false).emit t).skip 3

def scanOpeningBracket? (s : Scanner) (t : Token) : Option Scanner := do
  let s ← s.saveCandidate?
  return ({ (s.allowKey true).emit t with candidates := none :: s.candidates }).skip 1

def scanClosingBracket? (s : Scanner) (t : Token) : Option Scanner := do
  let s ← s.dropCandidate?
  let outer := if s.inFlow then s.candidates.drop 1 else s.candidates
  return ({ (s.allowKey false).emit t with candidates := outer }).skip 1

def scanFlowEntry? (s : Scanner) : Option Scanner := do
  let s ← s.dropCandidate?
  return ((s.allowKey true).emit .flowEntry).skip 1

def scanBlockEntry? (s : Scanner) : Option Scanner := do
  if !s.inFlow && !s.keyAllowed then none
  let s ← (s.roll .blockSequenceStart).dropCandidate?
  return ((s.allowKey true).emit .blockEntry).skip 1

def scanKey? (s : Scanner) : Option Scanner := do
  if !s.inFlow && !s.keyAllowed then none
  let s ← (s.roll .blockMappingStart).dropCandidate?
  return ((s.allowKey !s.inFlow).emit .key).skip 1

/-- A colon: the candidate of this level was a key, or the key before it was marked as one. -/
def scanValue? (s : Scanner) : Option Scanner :=
  match s.candidates with
  | some k :: rest =>
    let place : KeyPlace := ⟨k.tokens, s.opensBlock k.column⟩
    some ({ ((s.indentTo k.column).allowKey false).emit .value with
      keyPlaces := place :: s.keyPlaces, candidates := none :: rest }.skip 1)
  | _ => do
    if !s.inFlow && !s.keyAllowed then none
    let s := s.roll .blockMappingStart
    return ((s.allowKey !s.inFlow).emit .value).skip 1

def scanName? (s : Scanner) (make : List Char → Token) : Option Scanner := do
  let s ← s.saveCandidate?
  let (name, c) ← anchorName? (s.cursor.skip 1)
  return { (s.allowKey false).emit (make name) with cursor := c }

def scanTag? (s : Scanner) : Option Scanner := do
  let s ← s.saveCandidate?
  let (t, c) ← tag? s.inFlow s.cursor
  return { (s.allowKey false).emit (.tag t) with cursor := c }

def scanBlockScalar? (s : Scanner) (folded : Bool) : Option Scanner := do
  let s ← s.dropCandidate?
  let (text, c) ← blockScalar? folded s.indent (s.cursor.skip 1)
  let style := if folded then .folded else .literal
  return { (s.allowKey true).emit (.scalar style text) with cursor := c }

def scanQuoted? (s : Scanner) (quote : Char) : Option Scanner := do
  let s ← s.saveCandidate?
  let (text, c) ← quotedScalar? quote (s.cursor.rest.length + 1) (s.cursor.skip 1)
  return { (s.allowKey false).emit (.scalar .quoted text) with cursor := c }

def scanPlain? (s : Scanner) : Option Scanner := do
  let s ← s.saveCandidate?
  let (text, c, broken) ←
    plainScalar? s.inFlow (s.indent + 1) (s.cursor.rest.length + 1) .none s.cursor
  return { (s.allowKey broken).emit (.scalar .plain text) with cursor := c }

/-- A character that cannot begin a plain scalar. -/
def isIndicator (c : Char) : Bool :=
  ['-', '?', ':', ',', '[', ']', '\x7b', '\x7d', '#', '&', '*', '!', '|', '>', '\'', '"', '%', '@',
    '\x60'].contains c

/-- Whether a plain scalar begins with the character, given what follows it. -/
def beginsPlain (inFlow : Bool) (c : Char) (rest : List Char) : Bool :=
  !(isIndicator c || isBlank c || isBreak c) ||
    (c == '-' && !(rest.head?.any isBlank)) ||
    (!inFlow && (c == '?' || c == ':') && !endsWord rest)

/-- Scans the token that begins with the character. -/
def scanToken? (s : Scanner) (c : Char) (rest : List Char) : Option Scanner :=
  let marker := s.inFlow || endsWord rest
  if s.cursor.column = 0 ∧ c = '%' then s.scanDirective?
  else if s.cursor.isAtMarker ['-', '-', '-'] then s.scanDocumentMarker? .documentStart
  else if s.cursor.isAtMarker ['.', '.', '.'] then s.scanDocumentMarker? .documentEnd
  else if c = '[' then s.scanOpeningBracket? .flowSequenceStart
  else if c = '\x7b' then s.scanOpeningBracket? .flowMappingStart
  else if c = ']' then s.scanClosingBracket? .flowSequenceEnd
  else if c = '\x7d' then s.scanClosingBracket? .flowMappingEnd
  else if c = ',' then s.scanFlowEntry?
  else if c = '-' ∧ endsWord rest then s.scanBlockEntry?
  else if c = '?' ∧ marker then s.scanKey?
  else if c = ':' ∧ marker then s.scanValue?
  else if c = '*' then s.scanName? .alias
  else if c = '&' then s.scanName? .anchor
  else if c = '!' then s.scanTag?
  else if c = '|' ∧ !s.inFlow then s.scanBlockScalar? false
  else if c = '>' ∧ !s.inFlow then s.scanBlockScalar? true
  else if c = '\'' then s.scanQuoted? '\''
  else if c = '"' then s.scanQuoted? '"'
  else if beginsPlain s.inFlow c rest then s.scanPlain?
  else none

/-- Scans to the end of the text. -/
def run? : Nat → Scanner → Option Scanner
  | 0, _ => none
  | fuel + 1, s => do
    let s := skipGap (s.cursor.rest.length + 1) s
    let s ← s.dropStale?
    let s := s.unroll s.cursor.column
    match s.cursor.rest with
    | [] => s.finish?
    | c :: rest => run? fuel (← s.scanToken? c rest)

/-- The tokens from number `n` on, with the key tokens at their places. -/
def weave (places : List KeyPlace) : Nat → List Token → List Token
  | _, [] => []
  | n, t :: rest =>
    match places.find? fun p => p.tokens == n with
    | none => t :: weave places (n + 1) rest
    | some p =>
      (if p.opensBlock then [.blockMappingStart, .key] else [.key]) ++
        t :: weave places (n + 1) rest

end Scanner

/-- The tokens of a text: nothing if it is not well formed. -/
def Token.scan? (text : List Char) : Option (List Token) := do
  if !text.all isAllowed then none
  let s ← Scanner.run? (text.length + 2) (.start text)
  return Scanner.weave s.keyPlaces 0 s.tokens.reverse

end Flowline.Yaml
