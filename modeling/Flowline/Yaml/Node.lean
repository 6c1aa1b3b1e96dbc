import Flowline.Yaml.Token

/-!
# Nodes of YAML

`Document.ofTokens?` arranges the tokens of a text into the nodes of its document: scalars,
sequences and mappings. An alias stays an alias; the nodes that it can stand for are kept beside
the root. A text holds one document at most; a text without any has no root.
-/

namespace Flowline.Yaml

open Text (Glyph)

/-- A node of a document. -/
inductive Node where
  | scalar (tag : Option (List Glyph)) (style : Style) (text : List Char)
  | sequence (tag : Option (List Glyph)) (items : List Node)
  | mapping (tag : Option (List Glyph)) (entries : List (Node × Node))
  /-- The node whose anchor has this number. -/
  | alias (anchor : Nat)

instance : Inhabited Node := ⟨.alias 0⟩

/-- A node that is not written. -/
def Node.empty (tag : Option (List Glyph)) : Node := scalar tag .plain []

/-- What the arranging knows at a place. -/
structure Reading where
  tokens : List Token
  /-- The handles of tags with what they stand for. -/
  handles : List (List Char × List Glyph)
  /-- The names of anchors so far, each once, with their numbers. -/
  anchors : List (List Char × Nat)
  /-- The nodes with an anchor and the numbers of their anchors, the node that began last first.
  A node that has not ended yet is empty here. -/
  anchored : List (Nat × Node)

namespace Reading

def next (r : Reading) : Option Token := r.tokens.head?

def skip (r : Reading) : Reading := { r with tokens := r.tokens.drop 1 }

/-- Whether the next token is one of these. At the end of the tokens it is none. -/
def isAt (r : Reading) (ts : List Token) : Bool := r.next.any ts.contains

/-- What a tag stands for: nothing if its handle is not known. -/
def tagText? (r : Reading) (t : Tag) : Option (List Glyph) :=
  if t.handle = [] then some t.suffix else (r.handles.lookup t.handle).map (· ++ t.suffix)

/-- The anchor and the tag in front of a node, in either order. -/
def properties? (r : Reading) : Option (Option (List Char) × Option (List Glyph) × Reading) :=
  match r.next with
  | some (.anchor name) =>
    match r.skip.next with
    | some (.tag t) => (r.tagText? t).map fun text => (some name, some text, r.skip.skip)
    | _ => some (some name, none, r.skip)
  | some (.tag t) => do
    let text ← r.tagText? t
    match r.skip.next with
    | some (.anchor name) => return (some name, some text, r.skip.skip)
    | _ => return (none, some text, r.skip)
  | _ => some (none, none, r)

/-- Begins a node with an anchor. The number of the anchor is the number of names so far, so a name
that comes again shares its number with the next new one. -/
def addAnchor (r : Reading) : Option (List Char) → Reading
  | none => r
  | some name =>
    let number := r.anchors.length
    { r with
      anchors := (name, number) :: r.anchors.filter (·.1 ≠ name)
      anchored := (number, .empty none) :: r.anchored }

/-- Ends a node that began after `begun` nodes with an anchor, and keeps it if it has one too. -/
def keep (r : Reading) (begun : Option Nat) (n : Node) : Node × Reading :=
  match begun with
  | none => (n, r)
  | some begun =>
    let place := r.anchored.length - 1 - begun
    (n, { r with anchored := r.anchored.modify place fun (number, _) => (number, n) })

/-- A single exclamation mark says of a scalar that it has no tag. -/
def scalarTag (tag : Option (List Glyph)) : Option (List Glyph) :=
  tag.filter (· ≠ [.char '!'])

end Reading

/-- Where a node stands, which decides how it may begin. -/
inductive Place where
  /-- Inside brackets. -/
  | flow
  | block
  /-- A key or value of a block, where the items of a sequence need no indentation. -/
  | indentless
deriving DecidableEq

open Reading

mutual

/-- A node, which must be there. -/
def node? (place : Place) : Nat → Reading → Option (Node × Reading)
  | 0, _ => none
  | fuel + 1, r =>
    match r.next with
    | some (.alias name) => do return (.alias (← r.anchors.lookup name), r.skip)
    | _ => do
      let (anchor, tag, r) ← r.properties?
      let begun := anchor.map fun _ => r.anchored.length
      let r := r.addAnchor anchor
      match r.next with
      | some (.scalar style text) => return r.skip.keep begun (.scalar (scalarTag tag) style text)
      | some .flowSequenceStart => do
        let (items, r) ← flowItems? true fuel r.skip
        return r.keep begun (.sequence tag items)
      | some .flowMappingStart => do
        let (entries, r) ← flowEntries? true fuel r.skip
        return r.keep begun (.mapping tag entries)
      | some .blockSequenceStart =>
        if place = .flow then none
        else do
          let (items, r) ← blockItems? fuel r.skip
          return r.keep begun (.sequence tag items)
      | some .blockMappingStart =>
        if place = .flow then none
        else do
          let (entries, r) ← blockEntries? fuel r.skip
          return r.keep begun (.mapping tag entries)
      | some .blockEntry =>
        if place = .indentless then do
          let (items, r) ← indentlessItems? fuel r
          return r.keep begun (.sequence tag items)
        else if anchor.isSome || tag.isSome then some (r.keep begun (.empty tag))
        else none
      | _ => if anchor.isSome || tag.isSome then some (r.keep begun (.empty tag)) else none

/-- A node, or an empty one if one of the tokens comes first. -/
def nodeBefore? (place : Place) (ends : List Token) : Nat → Reading → Option (Node × Reading)
  | 0, _ => none
  | fuel + 1, r => if r.isAt ends then some (.empty none, r) else node? place fuel r

/-- The items of a sequence that is indented, up to its end. -/
def blockItems? : Nat → Reading → Option (List Node × Reading)
  | 0, _ => none
  | fuel + 1, r =>
    match r.next with
    | some .blockEntry => do
      let (item, r) ← nodeBefore? .block [.blockEntry, .blockEnd] fuel r.skip
      let (items, r) ← blockItems? fuel r
      return (item :: items, r)
    | some .blockEnd => some ([], r.skip)
    | _ => none

/-- The items of a sequence that is not indented. -/
def indentlessItems? : Nat → Reading → Option (List Node × Reading)
  | 0, _ => none
  | fuel + 1, r =>
    match r.next with
    | some .blockEntry => do
      let (item, r) ← nodeBefore? .block [.blockEntry, .key, .value, .blockEnd] fuel r.skip
      let (items, r) ← indentlessItems? fuel r
      return (item :: items, r)
    | _ => some ([], r)

/-- The entries of a mapping that is indented, up to its end. -/
def blockEntries? : Nat → Reading → Option (List (Node × Node) × Reading)
  | 0, _ => none
  | fuel + 1, r =>
    match r.next with
    | some .key => do
      let (key, r) ← nodeBefore? .indentless [.key, .value, .blockEnd] fuel r.skip
      let (value, r) ← blockValue? fuel r
      let (entries, r) ← blockEntries? fuel r
      return ((key, value) :: entries, r)
    | some .blockEnd => some ([], r.skip)
    | _ => none

/-- The value behind a key of a block; an empty one if there is none. -/
def blockValue? : Nat → Reading → Option (Node × Reading)
  | 0, _ => none
  | fuel + 1, r =>
    match r.next with
    | some .value => nodeBefore? .indentless [.key, .value, .blockEnd] fuel r.skip
    | _ => some (.empty none, r)

/-- The items of a sequence in brackets, up to its end. A comma stands before each but the
first. -/
def flowItems? (first : Bool) : Nat → Reading → Option (List Node × Reading)
  | 0, _ => none
  | fuel + 1, r =>
    if r.isAt [.flowSequenceEnd] then some ([], r.skip)
    else if !first && !r.isAt [.flowEntry] then none
    else
      let r := if first then r else r.skip
      if r.isAt [.flowSequenceEnd] then some ([], r.skip)
      else do
        let (item, r) ← (if r.isAt [.key] then pair? fuel r.skip else node? .flow fuel r)
        let (items, r) ← flowItems? false fuel r
        return (item :: items, r)

/-- A mapping of one entry that is an item of a sequence in brackets. -/
def pair? : Nat → Reading → Option (Node × Reading)
  | 0, _ => none
  | fuel + 1, r => do
    let ends := [.value, .flowEntry, .flowSequenceEnd]
    let (key, r) ← (if r.isAt ends then some (.empty none, r.skip) else node? .flow fuel r)
    let (value, r) ←
      (if r.isAt [.value] then nodeBefore? .flow [.flowEntry, .flowSequenceEnd] fuel r.skip
      else some (.empty none, r))
    return (.mapping none [(key, value)], r)

/-- The entries of a mapping in brackets, up to its end. A comma stands before each but the
first. -/
def flowEntries? (first : Bool) : Nat → Reading → Option (List (Node × Node) × Reading)
  | 0, _ => none
  | fuel + 1, r =>
    if r.isAt [.flowMappingEnd] then some ([], r.skip)
    else if !first && !r.isAt [.flowEntry] then none
    else
      let r := if first then r else r.skip
      if r.isAt [.flowMappingEnd] then some ([], r.skip)
      else do
        let (entry, r) ← flowEntry? fuel r
        let (entries, r) ← flowEntries? false fuel r
        return (entry :: entries, r)

/-- An entry of a mapping in brackets. Without a colon its value is empty. -/
def flowEntry? : Nat → Reading → Option ((Node × Node) × Reading)
  | 0, _ => none
  | fuel + 1, r =>
    if r.isAt [.key] then do
      let (key, r) ← nodeBefore? .flow [.value, .flowEntry, .flowMappingEnd] fuel r.skip
      let (value, r) ←
        (if r.isAt [.value] then nodeBefore? .flow [.flowEntry, .flowMappingEnd] fuel r.skip
        else some (.empty none, r))
      return ((key, value), r)
    else do
      let (key, r) ← node? .flow fuel r
      return ((key, .empty none), r)

end

/-! ## Documents -/

/-- A document: its root, if it has one, and the nodes that aliases stand for, with the numbers of
their anchors. -/
structure Document where
  root : Option Node
  anchored : List (Nat × Node)

/-- The handles that every document knows. -/
def knownHandles : List (List Char × List Glyph) :=
  [(['!'], [.char '!']), (['!', '!'], Glyph.ofString "tag:yaml.org,2002:")]

/-- The directives in front of a document: the handles that they define, and the tokens after
them. There may be one version, which must be 1.1 or 1.2, and no handle twice. -/
def directives? (versioned : Bool) (handles : List (List Char × List Glyph)) :
    List Token → Option (List (List Char × List Glyph) × List Token)
  | .versionDirective major minor :: rest =>
    if versioned ∨ major ≠ 1 ∨ (minor ≠ 1 ∧ minor ≠ 2) then none
    else directives? true handles rest
  | .tagDirective handle lead :: rest =>
    if (handles.lookup handle).isSome then none
    else directives? versioned ((handle, lead) :: handles) rest
  | rest => some (handles, rest)

def Token.isDirective : Token → Bool
  | .versionDirective .. | .tagDirective .. => true
  | _ => false

/-- Markers at the end of a document, any number of them. -/
def dropEndMarkers : List Token → List Token
  | .documentEnd :: rest => dropEndMarkers rest
  | rest => rest

/-- The document that the tokens spell. Behind it only markers of its end may stand. -/
def Document.ofTokens? (tokens : List Token) : Option Document := do
  match tokens with
  | [] => return ⟨none, []⟩
  | t :: _ =>
    let (handles, tokens) ← directives? false [] tokens
    let explicit := tokens.head? = some .documentStart
    if t.isDirective ∧ !explicit then none
    let r : Reading := ⟨if explicit then tokens.drop 1 else tokens, handles ++ knownHandles, [], []⟩
    let fuel := 4 * tokens.length + 4
    let isEmpty := explicit && (r.next.isNone || r.next.any Token.isDirective ||
      r.isAt [.documentStart, .documentEnd])
    let (root, r) ← (if isEmpty then some (Node.empty none, r) else node? .block fuel r)
    if dropEndMarkers r.tokens = [] then return ⟨some root, r.anchored⟩ else none

/-- The document of a text: nothing if the text is not well formed. -/
def Document.read? (text : List Char) : Option Document := do
  Document.ofTokens? (← Token.scan? text)

/-- The node that a node stands for: an alias stands for the last node with its anchor. -/
def Document.resolve (d : Document) : Node → Node
  | .alias i => (d.anchored.lookup i).getD (.alias i)
  | n => n

end Flowline.Yaml
