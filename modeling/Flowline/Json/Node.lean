import Flowline.Json.Value

/-!
# The shape of a JSON text

A `Node` is a value of a JSON text as far as it can be read. Where the text breaks off or goes
wrong, the node ends with a `Break` that says which; so a text always has a shape, and a reader
that walks over the shape in the order of the text meets the first problem first, be it a broken
token or a value of the wrong kind.

Strings and numbers are checked less when they are passed over than when they are read: a
`Token` keeps both answers.
-/

namespace Flowline.Json

/-- How a text fails to be JSON. -/
inductive Break where
  /-- Something stands where it may not. -/
  | malformed
  /-- The text ends inside a value. -/
  | cutOff
deriving DecidableEq

/-- A string or a number of the text. -/
structure Token (α : Type) where
  /-- What it reads as. -/
  read : Except Break α
  /-- What is wrong with it even if it is passed over. -/
  skip : Option Break

/-- A token that can be read. -/
def Token.good {α : Type} (a : α) : Token α := ⟨.ok a, none⟩

/-- A token that can be passed over but not read. -/
def Token.unreadable {α : Type} : Token α := ⟨.error .malformed, none⟩

/-- A token before which the text ends. -/
def Token.missing {α : Type} : Token α := ⟨.error .cutOff, some .cutOff⟩

mutual

/-- A value, as far as it can be read. -/
inductive Node where
  /-- Nothing that a value can begin with. -/
  | absent (b : Break)
  /-- The beginning of `null`, `true` or `false`, and no more of it. -/
  | word (b : Break)
  | null
  | bool (b : Bool)
  | number (token : Token Number)
  | text (token : Token String)
  | list (items : Items)
  | object (members : Members)

/-- The items of a list from some place on. -/
inductive Items where
  | close
  /-- Neither another item nor the end. -/
  | broken (b : Break)
  | item (value : Node) (rest : Items)

/-- The members of an object from some place on. -/
inductive Members where
  | close
  /-- Neither another member nor the end. -/
  | broken (b : Break)
  /-- The object begins with a value that is no string, where a key belongs. -/
  | noKey (value : Node)
  | member (key : Token String) (value : Node) (rest : Members)

end

/-- A whole text: its value, and whether something follows it. -/
structure Document where
  root : Node
  trailing : Bool

/-! ## Passing over a value -/

/-- An error if there is a break. -/
def Break.check : Option Break → Except Break PUnit
  | none => .ok ()
  | some b => .error b

mutual

/-- Passes over a value without reading it. -/
def Node.pass : Node → Except Break PUnit
  | .absent b | .word b => .error b
  | .null | .bool _ => .ok ()
  | .number token => Break.check token.skip
  | .text token => Break.check token.skip
  | .list items => items.pass
  | .object members => members.pass

def Items.pass : Items → Except Break PUnit
  | .close => .ok ()
  | .broken b => .error b
  | .item value rest => do value.pass; rest.pass

def Members.pass : Members → Except Break PUnit
  | .close => .ok ()
  | .broken b => .error b
  | .noKey _ => .error .malformed
  | .member key value rest => do Break.check key.skip; value.pass; rest.pass

end

/-! ## The shape of a value that is written out -/

mutual

/-- The shape of the text that a value is written as. -/
def Node.ofJson : Json → Node
  | .null => .null
  | .bool b => .bool b
  | .number n => .number (.good n)
  | .text s => .text (.good s)
  | .list items => .list (Items.ofList items)
  | .object members => .object (Members.ofList members)

def Items.ofList : List Json → Items
  | [] => .close
  | x :: xs => .item (Node.ofJson x) (Items.ofList xs)

def Members.ofList : List (String × Json) → Members
  | [] => .close
  | (k, x) :: xs => .member (.good k) (Node.ofJson x) (Members.ofList xs)

end

end Flowline.Json
