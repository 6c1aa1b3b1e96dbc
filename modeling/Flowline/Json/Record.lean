import Flowline.Json.Reader

/-!
# Reading records

A record is read from an object, its fields in any order, or from a list of its fields in the
order of declaration. `Fields` describes the fields; `Reader.record` does the reading. Members
that are no fields are passed over. `Reader.tagged` reads one of several records, the one that a
member named `kind` chooses.
-/

namespace Flowline.Json

/-- A field of a record. -/
structure Field (α : Type) where
  name : String
  /-- Other names that the field goes by. -/
  aliases : List String
  read : Reader α
  /-- The value of a field that is absent, if it may be. -/
  absent : Option α

/-- A field that must be there. -/
def Field.required {α : Type} (name : String) (read : Reader α) : Field α := ⟨name, [], read, none⟩

/-- A field with a value for when it is absent. -/
def Field.withDefault {α : Type} (name : String) (read : Reader α) (value : α) : Field α :=
  ⟨name, [], read, some value⟩

def Field.goesBy {α : Type} (f : Field α) (name : String) : Bool :=
  name = f.name || f.aliases.contains name

/-- The fields of a record, in the order of declaration. -/
inductive Fields : List Type → Type 1 where
  | nil : Fields []
  | cons {α : Type} {αs : List Type} (field : Field α) (rest : Fields αs) : Fields (α :: αs)

/-- The values of the fields. -/
abbrev Values : List Type → Type
  | [] => Unit
  | α :: αs => α × Values αs

/-- The values that have been read so far. -/
abbrev Slots : List Type → Type
  | [] => Unit
  | α :: αs => Option α × Slots αs

namespace Fields

/-- The number of the fields. -/
def count {αs : List Type} : Fields αs → Nat
  | nil => 0
  | cons _ rest => rest.count + 1

/-- Nothing read yet. -/
def noSlots {αs : List Type} : Fields αs → Slots αs
  | nil => ()
  | cons _ rest => (none, rest.noSlots)

/-- Reads the value of the field that goes by the name, if there is one. A field may come only
once, whatever name it goes by. -/
def fill {αs : List Type} (name : String) (mode : Mode) (value : Node) :
    Fields αs → Slots αs → Option (Except Fault (Slots αs))
  | nil, _ => none
  | cons f rest, (slot, slots) =>
    if f.goesBy name then
      match slot with
      | some _ => some (mismatch (.duplicateField f.name))
      | none => some ((f.read mode value).map fun a => (some a, slots))
    else (rest.fill name mode value slots).map fun result => result.map fun slots => (slot, slots)

/-- The values in the order of declaration, once all members are read. -/
def finish {αs : List Type} : Fields αs → Slots αs → Except Fault (Values αs)
  | nil, _ => .ok ()
  | cons f rest, (slot, slots) =>
    match slot.or f.absent with
    | none => mismatch (.missingField f.name)
    | some a => (rest.finish slots).map fun values => (a, values)

/-- Reads the members one after the other. -/
def readMembers {αs : List Type} (fields : Fields αs) (mode : Mode) :
    Members → Slots αs → Except Fault (Slots αs)
  | .close, slots => .ok slots
  | .broken b, _ => broken b
  | .noKey _, _ => broken .malformed
  | .member key value rest, slots => do
    let name ← Break.fault key.read
    match fields.fill name mode value slots with
    | some result => fields.readMembers mode rest (← result)
    | none => do
      Break.fault value.pass
      fields.readMembers mode rest slots

/-- Reads the members that are fields, and every other member whole: the values and the other
members. -/
def readBeside {αs : List Type} (fields : Fields αs) (mode : Mode) :
    Members → Slots αs → Except Fault (Slots αs × Members)
  | .close, slots => .ok (slots, .close)
  | .broken b, _ => broken b
  | .noKey _, _ => broken .malformed
  | .member key value rest, slots => do
    let name ← Break.fault key.read
    match fields.fill name mode value slots with
    | some result => fields.readBeside mode rest (← result)
    | none => do
      let _ ← Reader.any mode value
      let (slots, others) ← fields.readBeside mode rest slots
      return (slots, .member key value others)

/-- The number of items. -/
def countItems : Items → Nat
  | .item _ rest => countItems rest + 1
  | _ => 0

/-- The words for a number of elements. -/
def elements (n : Nat) : String := n.repr ++ (if n = 1 then " element" else " elements")

/-- Reads the items as the fields from number `index` of `total` on. Items beyond the last field
are refused. -/
def readItems {αs : List Type} (expected : String) (total index : Nat) (mode : Mode) :
    Fields αs → Items → Except Fault (Values αs)
  | nil, .close => .ok ()
  | nil, .broken b => broken b
  | nil, .item _ rest =>
    if mode.buffered then
      mismatch (.wrongLength (total + 1 + countItems rest) (elements total ++ " in sequence"))
    else broken .malformed
  | cons _ _, .broken b => broken b
  | cons f rest, .close =>
    match f.absent with
    | none => mismatch (.wrongLength index (expected ++ " with " ++ elements total))
    | some a =>
      (rest.readItems expected total (index + 1) mode .close).map fun values => (a, values)
  | cons f rest, .item value items => do
    let a ← f.read mode value
    let values ← rest.readItems expected total (index + 1) mode items
    return (a, values)

end Fields

/-- A record from an object alone. -/
def Reader.objectRecord {αs : List Type} (expected : String) (fields : Fields αs) :
    Reader (Values αs) := fun mode node =>
  match node with
  | .object members => do
    let mode ← mode.enter
    fields.finish (← fields.readMembers mode members fields.noSlots)
  | node => wrongType expected node

/-- A record from an object or from a list. -/
def Reader.record {αs : List Type} (expected : String) (fields : Fields αs) :
    Reader (Values αs) := fun mode node =>
  match node with
  | .list items => do
    let mode ← mode.enter
    fields.readItems expected fields.count 0 mode items
  | node => Reader.objectRecord expected fields mode node

/-! ## Records with a tag -/

/-- The name of the member that holds the tag. -/
def tagName : String := "kind"

/-- The number of a variant instead of its name, which only a buffer may hold. -/
def variantNumbered {α : Type} (variants : List (String × α)) (n : Nat) : Except Fault α :=
  match variants[n]? with
  | some (_, a) => .ok a
  | none => mismatch (.wrongValue (.integer n) ("variant index 0 <= i < " ++ variants.length.repr))

/-- The variant that a tag names. -/
def readTag {α : Type} (variants : List (String × α)) (mode : Mode) (node : Node) :
    Except Fault α :=
  match node with
  | .text token => do variantNamed variants (← Break.fault token.read)
  | .number token => do
    match ← Break.fault token.read with
    | .integer n =>
      if mode.buffered ∧ 0 ≤ n then variantNumbered variants n.toNat
      else mismatch (.wrongType (.integer n) variantIdentifier)
    | .float x => mismatch (.wrongType (.float x) variantIdentifier)
  | node => wrongType variantIdentifier node

/-- Reads the tag and, whole, every other member: the variant, if there was a tag, and the other
members. -/
def readTagged {α : Type} (variants : List (String × α)) (mode : Mode) :
    Members → Option α → Except Fault (Option α × Members)
  | .close, tag => .ok (tag, .close)
  | .broken b, _ => broken b
  | .noKey _, _ => broken .malformed
  | .member key value rest, tag => do
    let name ← Break.fault key.read
    if name = tagName then
      match tag with
      | some _ => mismatch (.duplicateField tagName)
      | none => readTagged variants mode rest (some (← readTag variants mode value))
    else
      let _ ← Reader.any mode value
      let (tag, others) ← readTagged variants mode rest tag
      return (tag, .member key value others)

/-- One of several records, each read from what is left beside the tag. In a list the tag comes
first. -/
def Reader.tagged {α : Type} (type : String) (variants : List (String × Reader α)) : Reader α :=
  fun mode node =>
    match node with
    | .object members => do
      let mode ← mode.enter
      match ← readTagged variants mode members none with
      | (none, _) => mismatch (.missingField tagName)
      | (some read, others) => read mode.again (.object others)
    | .list items => do
      let mode ← mode.enter
      match items with
      | .close => mismatch (.missingField tagName)
      | .broken b => broken b
      | .item value rest => do
        let read ← readTag variants mode value
        let _ ← rest.opaqueValues mode
        read mode.again (.list rest)
    | node => wrongType ("internally tagged enum " ++ type) node

end Flowline.Json
