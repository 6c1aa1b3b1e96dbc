import Flowline.Files.Fault
import Flowline.Files.Path
import Flowline.Table
import Flowline.Text.Glyph

/-!
# File trees

A `Files` is a tree of directories and files, with the directory that relative paths start at. A
place is the list of names from the root; `locate` follows a path to its place, as far as the
directories on the way exist. Reading, writing and removing work on the place.

* `get?_put`: writing a place changes this place and no other.
-/

namespace Flowline

open Text

/-- What stands at a place. -/
inductive Entry where
  | file (content : List Glyph)
  | directory
deriving DecidableEq

/-- A tree of files. -/
structure Files where
  /-- What stands at each place but the root. -/
  entries : Table (List String) Entry
  /-- The place where relative paths start. -/
  workingPlace : List String
deriving DecidableEq

namespace Files

/-- The tree with the root alone. -/
def empty : Files := ⟨Table.empty, []⟩

instance : Inhabited Files := ⟨empty⟩

/-! ## Places -/

/-- What stands at a place. -/
def get? (fs : Files) (place : List String) : Option Entry :=
  if place = [] then some .directory else fs.entries.get? place

/-- The tree with `e` at a place. -/
def put (fs : Files) (place : List String) (e : Entry) : Files :=
  { fs with entries := fs.entries.insert place e }

/-- The tree without what stands at a place. -/
def drop (fs : Files) (place : List String) : Files :=
  { fs with entries := fs.entries.erase place }

theorem get?_put (fs : Files) {place : List String} (hplace : place ≠ []) (e : Entry)
    (place' : List String) :
    (fs.put place e).get? place' = if place = place' then some e else fs.get? place' := by
  unfold get? put
  rw [Table.get?_insert]
  by_cases h : place = place'
  · subst h
    simp [hplace]
  · simp [h]

theorem get?_drop (fs : Files) {place : List String} (hplace : place ≠ [])
    (place' : List String) :
    (fs.drop place).get? place' = if place = place' then none else fs.get? place' := by
  unfold get? drop
  rw [Table.get?_erase]
  by_cases h : place = place'
  · subst h
    simp [hplace]
  · simp [h]

/-- The most bytes that a name can have. -/
def maxNameBytes : Nat := 255

/-- The place that a name leads to. -/
def step (place : List String) (name : String) : List String :=
  if name = "" ∨ name = "." then place
  else if name = ".." then place.dropLast
  else place ++ [name]

/-- Follows names from a place. Only a directory can be left, and only a name that is not too
long can be looked for. -/
def follow (fs : Files) (place : List String) : List String → Except FileFault (List String)
  | [] => .ok place
  | name :: rest =>
    match fs.get? place with
    | none => .error .notFound
    | some (.file _) => .error .notDirectory
    | some .directory =>
      if maxNameBytes < name.utf8ByteSize then .error .nameTooLong
      else follow fs (step place name) rest

/-- The place where a path starts. -/
def startOf (fs : Files) (path : String) : List String :=
  if Path.isAbsolute path then [] else fs.workingPlace

/-- The most bytes that a path can have. -/
def maxPathBytes : Nat := 4095

/-- Why no file system takes the path, whatever stands there. -/
def pathFault? (path : String) : Option FileFault :=
  if path.toList.contains '\x00' then some .impossibleName
  else if maxPathBytes < path.utf8ByteSize then some .nameTooLong
  else none

/-- The place of a path. What stands there may be nothing, but the directory around it exists. -/
def locate (fs : Files) (path : String) : Except FileFault (List String) :=
  if path = "" then .error .notFound
  else
    match pathFault? path with
    | some fault => .error fault
    | none => follow fs (fs.startOf path) (Path.parts path)

/-! ## Looking -/

/-- What stands at a path. -/
def lookUp (fs : Files) (path : String) : Except FileFault Entry := do
  match fs.get? (← fs.locate path) with
  | some e => return e
  | none => throw .notFound

def pathExists (fs : Files) (path : String) : Bool := (fs.lookUp path).isOk

def isDirectory (fs : Files) (path : String) : Bool :=
  match fs.lookUp path with
  | .ok .directory => true
  | _ => false

/-- The content of a file. -/
def read (fs : Files) (path : String) : Except FileFault (List Glyph) := do
  match ← fs.lookUp path with
  | .file content => return content
  | .directory => throw .isDirectory

/-- The name of a place in a directory, if it is there. -/
def childName? (place : List String) (child : List String) : Option String :=
  if child.dropLast = place then child.getLast? else none

/-- The names in a directory. -/
def names (fs : Files) (path : String) : Except FileFault (List String) := do
  let place ← fs.locate path
  match fs.get? place with
  | some .directory => return fs.entries.keys.filterMap (childName? place)
  | some (.file _) => throw .notDirectory
  | none => throw .notFound

/-! ## Changing -/

/-- The tree with a file at the path, new or in place of the old one. -/
def write (fs : Files) (path : String) (content : List Glyph) : Except FileFault Files := do
  let place ← fs.locate path
  match fs.get? place with
  | some .directory => throw .isDirectory
  | _ => return fs.put place (.file content)

/-- The tree without the file at the path. -/
def remove (fs : Files) (path : String) : Except FileFault Files := do
  let place ← fs.locate path
  match fs.get? place with
  | some .directory => throw .isDirectory
  | some (.file _) => return fs.drop place
  | none => throw .notFound

/-- Follows names from a place and makes the directories that are missing. Those that were made
stay, even if a later one cannot be made. -/
def makeAlong (fs : Files) (place : List String) : List String → Except FileFault PUnit × Files
  | [] => (.ok (), fs)
  | name :: rest =>
    if maxNameBytes < name.utf8ByteSize then (.error .nameTooLong, fs)
    else
      match fs.get? (step place name) with
      | some .directory => makeAlong fs (step place name) rest
      | some (.file _) => (.error (if rest = [] then .alreadyExists else .notDirectory), fs)
      | none => makeAlong (fs.put (step place name) .directory) (step place name) rest

/-- Makes the directory at the path and those around it, where they are missing. -/
def makeDirectories (fs : Files) (path : String) : Except FileFault PUnit × Files :=
  match pathFault? path with
  | some fault => (.error fault, fs)
  | none => fs.makeAlong (fs.startOf path) (Path.parts path)

end Files

end Flowline
