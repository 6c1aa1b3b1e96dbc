import Flowline.Text.Blank

/-!
# Paths as text

A path is a text of names between strokes. Paths are joined and cut as texts: nothing is looked
up, and points and doubled strokes stay where they are. `join` puts a name behind a path,
`parent?` takes the last name off; `parts` are the names that have to be followed one by one.
-/

namespace Flowline.Path

open Text

/-- Whether the path starts at the root. -/
def isAbsolute (path : String) : Bool := path.toList.head? == some '/'

/-- What stands between the strokes. -/
def parts (path : String) : List String := (path.toList.splitOn '/').map String.ofList

/-- The path of `name` seen from `base`. A `name` that starts at the root stays as it is. -/
def join (base name : String) : String :=
  if isAbsolute name || base = "" then name
  else if base.toList.getLast? = some '/' then base ++ name
  else base ++ "/" ++ name

/-- A part that leads nowhere else. -/
def isIdle (part : List Char) : Bool := part = [] || part = ['.']

/-- The parts, last one first, without the idle ones in front. A point that begins a relative
path counts as a name. -/
def dropIdle (absolute : Bool) : List (List Char) → List (List Char)
  | [] => []
  | [part] => if part = [] || (absolute && part = ['.']) then [] else [part]
  | part :: rest => if isIdle part then dropIdle absolute rest else part :: rest

/-- The path without its last name, if it has one. -/
def parent? (path : String) : Option String :=
  let absolute := isAbsolute path
  let names := if absolute then (path.toList.splitOn '/').tail else path.toList.splitOn '/'
  match dropIdle absolute names.reverse with
  | [] => none
  | _ :: rest =>
    let kept := (dropIdle absolute rest).reverse.map String.ofList
    some ((if absolute then "/" else "") ++ "/".intercalate kept)

/-- What stands before the last point of a file name and what stands after it. A point in front
counts as part of the name. -/
def cutExtension (name : List Char) : Option (List Char × List Char) :=
  match cutAt '.' name.reverse with
  | some (ext, stem) => if stem = [] then none else some (stem.reverse, ext.reverse)
  | none => none

/-- Whether the file name has the extension. -/
def hasExtension (ext name : String) : Bool :=
  (cutExtension name.toList).any fun cut => cut.2 == ext.toList

end Flowline.Path
