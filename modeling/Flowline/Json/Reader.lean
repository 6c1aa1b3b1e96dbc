import Flowline.Json.Fault
import Flowline.Json.Scan
import Flowline.Table

/-!
# Reading values

A `Reader` turns a node into a value of some type, or says why it does not fit. It walks over the
node in the order of the text and stops at the first problem.

Most values are read as they come. Where the form of a value is known only later (it has several
forms, or a tag among its members), the value is first read whole as an `opaque` one, so that
whatever is broken in it counts first, and then read again from the buffer: `Mode` tells the two
cases apart.
-/

namespace Flowline.Json

/-- How a value is read. -/
structure Mode where
  /-- The value has been read whole before, so nothing in it is broken. -/
  buffered : Bool
  /-- How many lists and objects may still be entered, one inside the other. -/
  depth : Nat

/-- Lists and objects nest at most 127 deep. -/
def Mode.start : Mode := ⟨false, 127⟩

/-- The mode inside a list or an object. -/
def Mode.enter (mode : Mode) : Except Fault Mode :=
  if mode.buffered then .ok mode
  else match mode.depth with
    | 0 => .error (.broken .malformed)
    | depth + 1 => .ok { mode with depth }

/-- The mode for reading again from the buffer. -/
def Mode.again (mode : Mode) : Mode := { mode with buffered := true }

/-- Turns a node into a value. -/
abbrev Reader (α : Type) := Mode → Node → Except Fault α

/-- The reader followed by a function. -/
def Reader.map {α β : Type} (f : α → β) (r : Reader α) : Reader β := fun mode node =>
  (r mode node).map f

def mismatch {α : Type} (m : Mismatch) : Except Fault α := .error (.mismatch m)

def broken {α : Type} (b : Break) : Except Fault α := .error (.broken b)

/-! ## Plain values -/

/-- What the node is, to be named in a message: strings and numbers are read for it. -/
def Node.found : Node → Except Fault Found
  | .absent b | .word b => broken b
  | .null => .ok .null
  | .bool b => .ok (.bool b)
  | .number token => (Break.fault token.read).map Found.ofNumber
  | .text token => (Break.fault token.read).map .text
  | .list _ => .ok .list
  | .object _ => .ok .object

/-- Refuses a node that is of the wrong kind. -/
def wrongType {α : Type} (expected : String) (node : Node) : Except Fault α := do
  mismatch (.wrongType (← node.found) expected)

/-- A text. -/
def readText? : Node → Option (Except Fault String)
  | .text token => some (Break.fault token.read)
  | _ => none

def Reader.text : Reader String := fun _ node =>
  (readText? node).getD (wrongType "a string" node)

/-- An integer between two bounds, both included. -/
def Reader.integer (low high : Int) (expected : String) : Reader Int := fun _ node =>
  match node with
  | .number token => do
    match ← Break.fault token.read with
    | .integer n =>
      if low ≤ n ∧ n ≤ high then return n
      else mismatch (.wrongValue (.integer n) expected)
    | .float x => mismatch (.wrongType (.float x) expected)
  | node => wrongType expected node

/-- A number that is not negative, up to a bound. -/
def Reader.natural (high : Nat) (expected : String) : Reader Nat :=
  (Reader.integer 0 high expected).map Int.toNat

def Reader.u64 : Reader Nat := Reader.natural 0xFFFFFFFFFFFFFFFF "u64"

def Reader.u32 : Reader Nat := Reader.natural 0xFFFFFFFF "u32"

def Reader.usize : Reader Nat := Reader.natural 0xFFFFFFFFFFFFFFFF "usize"

def Reader.i64 : Reader Int := Reader.integer (-0x8000000000000000) 0x7FFFFFFFFFFFFFFF "i64"

def Reader.i32 : Reader Int := Reader.integer (-0x80000000) 0x7FFFFFFF "i32"

/-- A value or `null`. -/
def Reader.optional {α : Type} (r : Reader α) : Reader (Option α) := fun mode node =>
  match node with
  | .null => .ok none
  | node => (r mode node).map some

/-! ## Lists and maps -/

/-- The items of a list. -/
def readItems {α : Type} (r : Node → Except Fault α) : Items → Except Fault (List α)
  | .close => .ok []
  | .broken b => broken b
  | .item value rest => do
    let x ← r value
    let xs ← readItems r rest
    return x :: xs

/-- The members of an object. The key is read before its value. -/
def readMembers {κ α : Type} (key : String → Except Fault κ) (r : Node → Except Fault α) :
    Members → Except Fault (List (κ × α))
  | .close => .ok []
  | .broken b => broken b
  | .noKey _ => broken .malformed
  | .member k value rest => do
    let k ← key (← Break.fault k.read)
    let x ← r value
    let xs ← readMembers key r rest
    return (k, x) :: xs

def Reader.list {α : Type} (r : Reader α) : Reader (List α) := fun mode node =>
  match node with
  | .list items => do readItems (r (← mode.enter)) items
  | node => wrongType "a sequence" node

/-- The members of an object, in order and with repetitions. -/
def Reader.members {κ α : Type} (key : String → Except Fault κ) (r : Reader α) :
    Reader (List (κ × α)) := fun mode node =>
  match node with
  | .object members => do readMembers key (r (← mode.enter)) members
  | node => wrongType "a map" node

/-- A map whose keys keep their first place. -/
def Reader.table {α : Type} (r : Reader α) : Reader (Table String α) :=
  (Reader.members .ok r).map Table.ofList

/-- A map in the order of its names. -/
def Reader.nameMap {α : Type} (r : Reader α) : Reader (NameMap α) :=
  (Reader.members .ok r).map NameMap.ofList

/-! ## Values that are not looked into -/

mutual

/-- Any value. Members are sorted, and of a repeated one the last counts. -/
def Node.opaqueValue (mode : Mode) : Node → Except Fault Json
  | .absent b | .word b => broken b
  | .null => .ok .null
  | .bool b => .ok (.bool b)
  | .number token => (Break.fault token.read).map .number
  | .text token => (Break.fault token.read).map .text
  | .list items => do
    let mode ← mode.enter
    return .list (← items.opaqueValues mode)
  | .object members => do
    let mode ← mode.enter
    return .ofNameMap (.ofList (← members.opaqueValues mode))

def Items.opaqueValues (mode : Mode) : Items → Except Fault (List Json)
  | .close => .ok []
  | .broken b => broken b
  | .item value rest => do
    let x ← value.opaqueValue mode
    let xs ← rest.opaqueValues mode
    return x :: xs

def Members.opaqueValues (mode : Mode) : Members → Except Fault (List (String × Json))
  | .close => .ok []
  | .broken b => broken b
  | .noKey _ => broken .malformed
  | .member key value rest => do
    let k ← Break.fault key.read
    let x ← value.opaqueValue mode
    let xs ← rest.opaqueValues mode
    return (k, x) :: xs

end

/-- Any value. -/
def Reader.any : Reader Json := Node.opaqueValue

/-- An object of any values. -/
def Reader.anyMap : Reader (NameMap Json) := Reader.nameMap Reader.any

/-! ## Choices -/

/-- The value beside a name. -/
def variantNamed {α : Type} (variants : List (String × α)) (name : String) : Except Fault α :=
  match variants.lookup name with
  | some a => .ok a
  | none => mismatch (.unknownVariant name (variants.map Prod.fst))

/-- What the variants of a choice are named by. -/
def variantIdentifier : String := "variant identifier"

/-- A variant that has no content may have `null` for its content; from a buffer also `{}`. -/
def noContent (mode : Mode) : Node → Except Fault PUnit
  | .null => .ok ()
  | .object .close => if mode.buffered then .ok () else wrongType "unit" (.object .close)
  | node => wrongType "unit" node

/-- One of several names. The name may also be the only key of an object. -/
def Reader.variant {α : Type} (variants : List (String × α)) : Reader α := fun mode node =>
  match node with
  | .text token => do variantNamed variants (← Break.fault token.read)
  | .object members =>
    if mode.buffered then
      match members with
      | .member key value .close => do
        let a ← variantNamed variants (← Break.fault key.read)
        noContent mode value
        return a
      | _ => mismatch (.wrongValue .object "map with a single key")
    else do
      let _ ← mode.enter
      match members with
      | .close => broken .malformed
      | .broken b => broken b
      | .noKey value => wrongType variantIdentifier value
      | .member key value rest => do
        let a ← variantNamed variants (← Break.fault key.read)
        noContent mode value
        match rest with
        | .close => return a
        | .broken b => broken b
        | _ => broken .malformed
  | .absent b => broken b
  | node => if mode.buffered then wrongType "string or map" node else broken .malformed

/-- The first of several readers that accepts the value, once all of it has been read. -/
def Reader.forms {α : Type} (type : String) (readers : List (Reader α)) : Reader α :=
  fun mode node => do
    let _ ← Reader.any mode node
    let accept (r : Reader α) : Option α := (r mode.again node).toOption
    match readers.findSome? accept with
    | some a => return a
    | none => mismatch (.noForm type)

/-- The whole text as one value. -/
def Reader.run {α : Type} (r : Reader α) (s : List Text.Glyph) : Except Fault α := do
  let document := Document.scan s
  let a ← r Mode.start document.root
  if document.trailing then broken .malformed else return a

end Flowline.Json
