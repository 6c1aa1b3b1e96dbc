import Flowline.Error
import Flowline.Yaml.Node

/-!
# Settings

The settings of a deployment and how they are read from YAML. Every setting has a default, and an
empty text gives all of them; names that are not known are passed over, but a value of the wrong
kind, or a name that comes twice, makes the whole text unusable.
-/

namespace Flowline

open Text Yaml

/-- Where statuses come from. -/
inductive SourceKind where
  /-- A simulation, without any other system. -/
  | mock
  /-- The databases of the execution systems. -/
  | database
deriving DecidableEq, Inhabited

namespace SourceKind

def all : List SourceKind := [mock, database]

def name : SourceKind → String
  | mock => "mock"
  | database => "database"

/-- The kind with exactly this name. -/
def ofName? (s : String) : Option SourceKind := all.find? fun k => k.name == s

end SourceKind

/-- Settings of the simulation. -/
structure MockSettings where
  /-- Seconds between two looks. -/
  intervalSecs : Nat
deriving DecidableEq

instance : Inhabited MockSettings := ⟨⟨5⟩⟩

/-- Settings of the databases. -/
structure DatabaseSettings where
  url : Option String
  dagRunTable : String
  stageStatusTable : String
  maxConnections : Nat
deriving DecidableEq

instance : Inhabited DatabaseSettings := ⟨⟨none, "dag_run", "stage_status", 5⟩⟩

/-- The settings of a deployment. -/
structure Settings where
  name : String
  configDir : String
  source : SourceKind
  mock : MockSettings
  database : DatabaseSettings
  /-- Seconds between two looks at flows that do not say it themselves. -/
  defaultRefreshInterval : Nat
deriving DecidableEq

instance : Inhabited Settings := ⟨⟨"flowtrack", "configs", .mock, default, default, 120⟩⟩

namespace Settings

/-! ## Reading values -/

/-- The words that mean that there is no value. -/
def nullWords : List String := ["null", "Null", "NULL", "~"]

def tagNamed (kind : String) : List Glyph := Glyph.ofString ("tag:yaml.org,2002:" ++ kind)

/-- Any scalar is a text, however it is written. -/
def text? (d : Document) (n : Node) : Option String :=
  match d.resolve n with
  | .scalar _ _ s => some (String.ofList s)
  | _ => none

/-- A text, or a plain scalar that means that there is none. -/
def optionalText? (d : Document) (n : Node) : Option (Option String) :=
  match d.resolve n with
  | .scalar tag .plain s =>
    let isNull := nullWords.contains (String.ofList s)
    match tag with
    | none => some (if s = [] ∨ isNull then none else some (String.ofList s))
    | some t =>
      if t = tagNamed "null" then (if isNull then some none else none)
      else some (some (String.ofList s))
  | .scalar _ _ s => some (some (String.ofList s))
  | _ => none

/-- The value of a digit up to base 16. -/
def digit? (base : Nat) (c : Char) : Option Nat := (hexValue? c).filter (· < base)

/-- The number that digits of a base spell, at least one of them, up to a bound. -/
def digits? (base high : Nat) (s : List Char) : Option Nat := do
  if s = [] then none
  let n ← s.foldlM (fun n c => (digit? base c).map (base * n + ·)) 0
  if n ≤ high then some n else none

/-- The base that the start of a number names, and the digits behind it. -/
def based? : List Char → Option (Nat × List Char)
  | '0' :: 'x' :: s => some (16, s)
  | '0' :: 'o' :: s => some (8, s)
  | '0' :: 'b' :: s => some (2, s)
  | _ => none

/-- What follows the plus sign that a number may begin with. -/
def dropPlus : List Char → List Char
  | '+' :: s => s
  | s => s

/-- Digits only, more than one, the first of them a zero: such a word is no number. -/
def hasLeadingZero (s : List Char) : Bool :=
  match s with
  | '0' :: rest => rest ≠ [] && rest.all Char.isDigit
  | _ => false

/-- The number up to a bound that a word spells. -/
def number? (high : Nat) (s : List Char) : Option Nat :=
  let digits := dropPlus s
  match (based? digits).bind fun (base, rest) => digits? base high rest with
  | some n => some n
  | none => if hasLeadingZero digits then none else digits? 10 high digits

/-- A number up to a bound: a plain scalar, or a block that is tagged as an integer. -/
def natural? (high : Nat) (d : Document) (n : Node) : Option Nat :=
  match d.resolve n with
  | .scalar _ .plain s => number? high s
  | .scalar (some tag) .literal s => if tag = tagNamed "int" then number? high s else none
  | _ => none

/-- Whether a scalar stands for no content. -/
def isNoContent (style : Style) (s : List Char) : Bool :=
  style == .plain && (s = [] || nullWords.contains (String.ofList s))

/-- The name that a tag of its own gives to a value: what follows the exclamation mark, which
itself is a name too. A tag that is no text gives none. -/
def tagName? (tag : Option (List Glyph)) : Option String := do
  match ← Glyph.characters? (← tag) with
  | ['!'] => some "!"
  | '!' :: name => some (String.ofList name)
  | _ => none

/-- The kind of a source: its name as a scalar, or as a tag of its own with no content. -/
def sourceKind? (d : Document) (n : Node) : Option SourceKind :=
  match d.resolve n with
  | .scalar tag style s =>
    match tagName? tag with
    | some name => (SourceKind.ofName? name).filter fun _ => isNoContent style s
    | none => SourceKind.ofName? (String.ofList s)
  | _ => none

/-! ## Reading records -/

/-- The entries of a record. An empty plain scalar is a record without entries. -/
def entries? (d : Document) (n : Node) : Option (List (Node × Node)) :=
  match d.resolve n with
  | .mapping _ entries => some entries
  | .scalar _ .plain [] => some []
  | _ => none

/-- The entries with their keys read, which must be scalars. -/
def named? (d : Document) (n : Node) : Option (List (String × Node)) := do
  (← entries? d n).mapM fun (key, value) => do return (← text? d key, value)

/-- The value of a field: the default if it is absent, nothing if it is wrong or comes twice. -/
def field? {α : Type} (entries : List (String × Node)) (name : String) (read : Node → Option α)
    (absent : α) : Option α :=
  match entries.filter fun e => e.1 = name with
  | [] => some absent
  | [(_, value)] => read value
  | _ => none

def mock? (d : Document) (n : Node) : Option MockSettings := do
  let entries ← named? d n
  let dflt : MockSettings := default
  return ⟨← field? entries "interval_secs" (natural? 0xFFFFFFFFFFFFFFFF d) dflt.intervalSecs⟩

def database? (d : Document) (n : Node) : Option DatabaseSettings := do
  let entries ← named? d n
  let dflt : DatabaseSettings := default
  return {
    url := ← field? entries "url" (optionalText? d) dflt.url
    dagRunTable := ← field? entries "dag_run_table" (text? d) dflt.dagRunTable
    stageStatusTable := ← field? entries "stage_status_table" (text? d) dflt.stageStatusTable
    maxConnections :=
      ← field? entries "max_connections" (natural? 0xFFFFFFFF d) dflt.maxConnections }

/-- The settings that a node spells. -/
def ofNode? (d : Document) (n : Node) : Option Settings := do
  let entries ← named? d n
  let dflt : Settings := default
  return {
    name := ← field? entries "name" (text? d) dflt.name
    configDir := ← field? entries "config_dir" (text? d) dflt.configDir
    source := ← field? entries "source" (sourceKind? d) dflt.source
    mock := ← field? entries "mock" (mock? d) dflt.mock
    database := ← field? entries "database" (database? d) dflt.database
    defaultRefreshInterval :=
      ← field? entries "default_refresh_interval" (natural? 0xFFFFFFFFFFFFFFFF d)
        dflt.defaultRefreshInterval }

/-- The settings that a text spells. -/
def read (s : List Char) : Except Error Settings :=
  match Document.read? s with
  | none => .error .settings
  | some d =>
    match d.root with
    | none => .ok default
    | some n =>
      match ofNode? d n with
      | some settings => .ok settings
      | none => .error .settings

end Settings

end Flowline
