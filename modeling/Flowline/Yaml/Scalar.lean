import Flowline.Text.Integer
import Flowline.Yaml.Cursor

/-!
# Scalars of YAML

The four ways of writing a text: plain, in single quotes, in double quotes, and as a block that is
kept line by line or folded. Each function reads the scalar at a place and gives its text and the
place after it, or nothing if the scalar is not well formed.
-/

namespace Flowline.Yaml

open Text (hexValue?)

/-- How a scalar is written, as far as its reading depends on it. -/
inductive Style where
  | plain
  | quoted
  /-- A block kept line by line. -/
  | literal
  | folded
deriving DecidableEq

/-! ## Plain scalars -/

/-- A character that ends a plain scalar inside brackets. -/
def isFlowIndicator (c : Char) : Bool := [',', '[', ']', '\x7b', '\x7d'].contains c

/-- The word of a plain scalar at the start of the text: nothing if a colon stands before a
bracket inside brackets. -/
def plainWord? (inFlow : Bool) : List Char → Option (List Char)
  | [] => some []
  | c :: rest =>
    if isBlank c || isBreak c then some []
    else if c = ':' then
      if inFlow && rest.head?.any (fun d => isFlowIndicator d || d == '?') then none
      else if endsWord rest then some []
      else (plainWord? inFlow rest).map (c :: ·)
    else if inFlow && isFlowIndicator c then some []
    else (plainWord? inFlow rest).map (c :: ·)

/-- A plain scalar: its text, the place after it, and whether a line has ended since its last
word. `indent` is the least column that it may go on in, outside brackets. -/
def plainScalar? (inFlow : Bool) (indent : Int) :
    Nat → Gap → Cursor → Option (List Char × Cursor × Bool)
  | 0, _, _ => none
  | fuel + 1, gap, c =>
    if c.isAtDocumentMarker || c.rest.head? = some '#' then some ([], c, gap.hasBreak)
    else do
      let word ← plainWord? inFlow c.rest
      let after := c.skip word.length
      let read := if word = [] then [] else gap.text ++ word
      let gap := if word = [] then gap else .none
      if after.rest = [] || !endsWord after.rest then return (read, after, gap.hasBreak)
      let (gap, next) ← Gap.read? (fun d column => d == '\t' && column < indent)
        (after.rest.length + 1) gap after
      if !inFlow && next.column < indent then return (read, next, gap.hasBreak)
      let (more, next, broken) ← plainScalar? inFlow indent fuel gap next
      return (read ++ more, next, broken)

/-! ## Quoted scalars -/

/-- The number that digits of base 16 spell. -/
def hexNumber? (digits : List Char) : Option Nat :=
  digits.foldlM (fun n c => (hexValue? c).map (16 * n + ·)) 0

/-- The character with the code that `count` digits spell, and how many characters it took. -/
def codeEscape? (count : Nat) (s : List Char) : Option (Char × Nat) := do
  let digits := s.take count
  if digits.length < count then none
  let n ← hexNumber? digits
  if n.isValidChar then return (Char.ofNat n, count) else none

/-- The character that an escape stands for, from behind the backslash, and how many characters
it took. -/
def escape? : List Char → Option (Char × Nat)
  | [] => none
  | c :: s =>
    match c with
    | '0' => some ('\x00', 1)
    | 'a' => some ('\x07', 1)
    | 'b' => some ('\x08', 1)
    | 't' => some ('\t', 1)
    | '\t' => some ('\t', 1)
    | 'n' => some ('\n', 1)
    | 'v' => some ('\x0b', 1)
    | 'f' => some ('\x0c', 1)
    | 'r' => some ('\r', 1)
    | 'e' => some ('\x1b', 1)
    | ' ' => some (' ', 1)
    | '"' => some ('"', 1)
    | '/' => some ('/', 1)
    | '\\' => some ('\\', 1)
    | 'N' => some ('\u0085', 1)
    | '_' => some ('\u00a0', 1)
    | 'L' => some ('\u2028', 1)
    | 'P' => some ('\u2029', 1)
    | 'x' => (codeEscape? 2 s).map fun (d, n) => (d, n + 1)
    | 'u' => (codeEscape? 4 s).map fun (d, n) => (d, n + 1)
    | 'U' => (codeEscape? 8 s).map fun (d, n) => (d, n + 1)
    | _ => none

/-- A word in quotes: its text, the place after it, and whether an escaped line end stopped it. -/
def quotedWord? (quote : Char) : Nat → Cursor → Option (List Char × Cursor × Bool)
  | 0, _ => none
  | fuel + 1, c =>
    match c.rest with
    | [] => some ([], c, false)
    | d :: rest =>
      if isBlank d || isBreak d then some ([], c, false)
      else if d = quote then
        if quote = '\'' ∧ rest.head? = some '\'' then do
          let (more, after, escaped) ← quotedWord? quote fuel (c.skip 2)
          return ('\'' :: more, after, escaped)
        else some ([], c, false)
      else if quote = '"' ∧ d = '\\' then
        if rest.head?.any isBreak then some ([], (c.skip 1).skipBreak, true)
        else do
          let (e, n) ← escape? rest
          let (more, after, escaped) ← quotedWord? quote fuel (c.skip (n + 1))
          return (e :: more, after, escaped)
      else do
        let (more, after, escaped) ← quotedWord? quote fuel (c.skip 1)
        return (d :: more, after, escaped)

/-- A quoted scalar from behind its opening quote on. -/
def quotedScalar? (quote : Char) : Nat → Cursor → Option (List Char × Cursor)
  | 0, _ => none
  | fuel + 1, c =>
    if c.isAtDocumentMarker || c.rest = [] then none
    else do
      let (word, after, escaped) ← quotedWord? quote (c.rest.length + 1) c
      if !escaped && after.rest.head? = some quote then return (word, after.skip 1)
      let gap := if escaped then Gap.breaks none [] else Gap.none
      let (gap, next) ← Gap.read? (fun _ _ => false) (after.rest.length + 1) gap after
      let (more, next) ← quotedScalar? quote fuel next
      return (word ++ gap.text ++ more, next)

/-! ## Block scalars -/

/-- What becomes of the line ends at the end of a block. -/
inductive Chomping where
  | strip
  | clip
  | keep
deriving DecidableEq

def chomping? : Char → Option Chomping
  | '+' => some .keep
  | '-' => some .strip
  | _ => none

/-- A digit that says how deep a block is indented. -/
def indentDigit? (c : Char) : Option Nat :=
  if c.isDigit then some (c.toNat - '0'.toNat) else none

/-- The header of a block behind its indicator: chomping and depth in either order, then the rest
of the line. A depth of zero is refused. -/
def blockHeader? (c : Cursor) : Option (Chomping × Option Nat × Cursor) := do
  let sign := c.rest.head?.bind chomping?
  let c := if sign.isSome then c.skip 1 else c
  let depth := c.rest.head?.bind indentDigit?
  let c := if depth.isSome then c.skip 1 else c
  let late := if sign.isNone && depth.isSome then c.rest.head?.bind chomping? else none
  let c := if late.isSome then c.skip 1 else c
  if depth = some 0 then none
  let c ← c.skipRestOfLine?
  return ((sign.or late).getD .clip, depth, c)

/-- The empty lines at a place, the greatest column in them, and the place after them. A tab may
not stand in the indentation. -/
def blockBreaks? (indent : Option Nat) : Nat → Nat → Cursor → Option (List Char × Nat × Cursor)
  | 0, _, _ => none
  | fuel + 1, widest, c =>
    let blanks := (c.rest.takeWhile (· == ' ')).length
    let c := c.skip (match indent with
      | none => blanks
      | some n => min blanks (n - c.column))
    let widest := max widest c.column
    let inIndent := match indent with
      | none => true
      | some n => c.column < n
    match c.rest with
    | [] => some ([], widest, c)
    | d :: _ =>
      if inIndent && d == '\t' then none
      else if isBreak d then do
        let (more, widest, c) ← blockBreaks? indent fuel widest c.skipBreak
        return (keptBreak d :: more, widest, c)
      else some ([], widest, c)

/-- What stands between two lines of a block. In a folded block one line end between two lines
that begin without a blank becomes a blank, and of several the first is dropped. -/
def blockJoint (folded afterBlank beforeBlank : Bool) (lineEnd : Option Char)
    (empties : List Char) : List Char :=
  if folded && lineEnd == some '\n' && !afterBlank && !beforeBlank then
    if empties = [] then [' '] else empties
  else lineEnd.toList ++ empties

/-- The lines of a block from a place on: their text, and the line end and the empty lines at the
end of it. -/
def blockLines? (folded : Bool) (indent : Nat) :
    Nat → Bool → Option Char → List Char → Cursor →
      Option (List Char × Option Char × List Char × Cursor)
  | 0, _, _, _, _ => none
  | fuel + 1, afterBlank, lineEnd, empties, c =>
    if c.column ≠ indent ∨ c.rest = [] then some ([], lineEnd, empties, c)
    else do
      let beginsBlank := c.rest.head?.any isBlank
      let joint := blockJoint folded afterBlank beginsBlank lineEnd empties
      let line := c.rest.takeWhile fun d => !isBreak d
      let c := c.skipToBreak
      let lineEnd := c.rest.head?.map keptBreak
      let c := if c.rest = [] then c else c.skipBreak
      let (empties, _, c) ← blockBreaks? (some indent) (c.rest.length + 1) 0 c
      let (more, lineEnd, empties, c) ← blockLines? folded indent fuel beginsBlank lineEnd empties c
      return (joint ++ line ++ more, lineEnd, empties, c)

/-- A block scalar behind its indicator, inside a block indented by `parent`. -/
def blockScalar? (folded : Bool) (parent : Int) (c : Cursor) : Option (List Char × Cursor) := do
  let (chomping, depth, c) ← blockHeader? c
  let given := depth.map fun n => (if 0 ≤ parent then parent.toNat else 0) + n
  let (empties, widest, c) ← blockBreaks? given (c.rest.length + 1) 0 c
  let indent := given.getD (max widest (max 1 (parent + 1).toNat))
  let (body, lineEnd, empties, c) ←
    blockLines? folded indent (c.rest.length + 1) false none empties c
  let tail := match chomping with
    | .strip => []
    | .clip => lineEnd.toList
    | .keep => lineEnd.toList ++ empties
  return (body ++ tail, c)

end Flowline.Yaml
