import Flowline.Text.Integer

/-!
# The command line

What the words of a command line ask for: `Invocation.ofArguments?`. Options come before or after
the words that they go with, `--name value`, `--name=value`, `-n value` and `-nvalue` all say the
same, and two strokes alone end the options.
-/

namespace Flowline.Command

open Text

/-- What to do. -/
inductive Action where
  /-- Make a new deployment. -/
  | init (path : String) (name : Option String)
  /-- Check a registration. -/
  | validate (file : String) (json : Bool)
  | list
  | display (name : String) (json : Bool)
  | register (file : String)
  | remove (name : String)
  /-- Ask once for the status of a flow. -/
  | status (name : String) (json : Bool)
  /-- Follow the status of a flow, for so many updates. -/
  | watch (name : String) (ticks : Option Nat)
  /-- Keep the statuses of all flows fresh. -/
  | run
deriving DecidableEq

/-- What to do, and with which deployment. -/
structure Invocation where
  config : String
  action : Action
deriving DecidableEq

/-- The deployment that is meant when none is named. -/
def defaultConfig : String := "flowtrack.yaml"

/-! ## Options -/

/-- An option: its letter, its name, and whether a value goes with it. -/
structure OptionForm where
  letter : Option Char
  name : String
  valued : Bool

/-- The words of a command line, sorted. -/
structure Words where
  /-- The options by their names, with their values. -/
  options : List (String × Option String)
  /-- The words that are no options. -/
  plain : List String

/-- Adds a word that is no option. -/
def Words.withPlain (word : String) (w : Words) : Words := { w with plain := word :: w.plain }

/-- How a word begins an option. -/
inductive OptionStart where
  /-- It is no option. -/
  | plain
  /-- The options end here. -/
  | terminator
  /-- Options that are complete. -/
  | complete (options : List (String × Option String))
  /-- Options of which the last one needs the next word as its value. -/
  | pending (options : List (String × Option String)) (name : String)
  | unknown

/-- The options that letters spell. -/
def letters (forms : List OptionForm) : List Char → OptionStart
  | [] => .complete []
  | c :: rest =>
    match forms.find? fun form => form.letter == some c with
    | none => .unknown
    | some form =>
      if form.valued then
        match rest with
        | [] => .pending [] form.name
        | '=' :: value => .complete [(form.name, some (String.ofList value))]
        | value => .complete [(form.name, some (String.ofList value))]
      else
        match letters forms rest with
        | .complete options => .complete ((form.name, none) :: options)
        | .pending options name => .pending ((form.name, none) :: options) name
        | other => other

/-- The option that a name spells, with its value behind a sign of equality. -/
def named (forms : List OptionForm) (s : List Char) : OptionStart :=
  let (name, value) := match cutAt '=' s with
    | some (name, value) => (name, some (String.ofList value))
    | none => (s, none)
  match forms.find? fun form => form.name.toList == name with
  | none => .unknown
  | some form =>
    match form.valued, value with
    | true, none => .pending [] form.name
    | true, some value => .complete [(form.name, some value)]
    | false, none => .complete [(form.name, none)]
    | false, some _ => .unknown

/-- How a word begins an option. -/
def startOf (forms : List OptionForm) (word : String) : OptionStart :=
  match word.toList with
  | ['-', '-'] => .terminator
  | '-' :: '-' :: s => named forms s
  | ['-'] => .plain
  | '-' :: s => letters forms s
  | _ => .plain

/-- Sorts the words. With `stop`, everything from the first word on that is no option is left as
it is. -/
def sortWords (forms : List OptionForm) (stop : Bool) : List String → Option Words
  | [] => some ⟨[], []⟩
  | word :: rest =>
    match startOf forms word with
    | .plain =>
      if stop then some ⟨[], word :: rest⟩ else (sortWords forms stop rest).map (.withPlain word)
    | .terminator => some ⟨[], rest⟩
    | .complete options =>
      (sortWords forms stop rest).map fun w => { w with options := options ++ w.options }
    | .pending options name =>
      match rest with
      | [] => none
      | value :: rest =>
        match startOf forms value with
        | .plain =>
          (sortWords forms stop rest).map fun w =>
            { w with options := options ++ (name, some value) :: w.options }
        | _ => none
    | .unknown => none

/-- Sorts the words and refuses an option that comes twice. -/
def words? (forms : List OptionForm) (stop : Bool) (args : List String) : Option Words := do
  let w ← sortWords forms stop args
  if (w.options.map Prod.fst).Nodup then some w else none

/-- The value of an option. -/
def Words.value? (w : Words) (name : String) : Option String := (w.options.lookup name).join

/-- Whether an option is there. -/
def Words.has (w : Words) (name : String) : Bool := (w.options.lookup name).isSome

/-! ## Actions -/

def configForm : OptionForm := ⟨some 'c', "config", true⟩

def verboseForm : OptionForm := ⟨some 'v', "verbose", false⟩

def nameForm : OptionForm := ⟨some 'n', "name", true⟩

def jsonForm : OptionForm := ⟨none, "json", false⟩

def ticksForm : OptionForm := ⟨none, "ticks", true⟩

/-- The one word that is no option. -/
def Words.single? (w : Words) : Option String :=
  match w.plain with
  | [word] => some word
  | _ => none

/-- A number of updates. -/
def ticks? (s : String) : Option Nat :=
  let digits := match s.toList with
    | '+' :: digits => digits
    | digits => digits
  (natural? digits).filter (· ≤ 0xFFFFFFFFFFFFFFFF)

/-- What the words behind the options of the deployment ask for. -/
def Action.ofArguments? : List String → Option Action
  | "init" :: args => do
    let w ← words? [nameForm] false args
    match w.plain with
    | [] => some (.init "." (w.value? "name"))
    | [path] => some (.init path (w.value? "name"))
    | _ => none
  | "validate" :: args => do
    let w ← words? [jsonForm] false args
    return .validate (← w.single?) (w.has "json")
  | "flow" :: "list" :: args => do
    let w ← words? [] false args
    if w.plain.isEmpty then some .list else none
  | "flow" :: "show" :: args => do
    let w ← words? [jsonForm] false args
    return .display (← w.single?) (w.has "json")
  | "flow" :: "register" :: args => do return .register (← (← words? [] false args).single?)
  | "flow" :: "remove" :: args => do return .remove (← (← words? [] false args).single?)
  | "status" :: args => do
    let w ← words? [jsonForm] false args
    return .status (← w.single?) (w.has "json")
  | "watch" :: args => do
    let w ← words? [ticksForm] false args
    let name ← w.single?
    match w.value? "ticks" with
    | none => return .watch name none
    | some s => return .watch name (some (← ticks? s))
  | "run" :: args => do
    let w ← words? [] false args
    if w.plain.isEmpty then some .run else none
  | _ => none

/-- What the words of a command line ask for, with the deployment that is meant if they name
none. -/
def Invocation.ofArguments? (config : String) (args : List String) : Option Invocation := do
  let w ← words? [configForm, verboseForm] true args
  return ⟨(w.value? "config").getD config, ← Action.ofArguments? w.plain⟩

end Flowline.Command
