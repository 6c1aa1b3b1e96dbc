import Flowline.Files.Basic
import Flowline.Registration.Format

/-!
# Stored flows

A `Store` keeps registrations in a directory, one file per flow, named after the flow. Names that
could lead out of the directory are refused before any file is looked at.
-/

namespace Flowline

open Text

namespace Registration

/-- The registration in a file. -/
def load (fs : Files) (path : String) : Except Error Registration :=
  if fs.pathExists path then
    match fs.read path with
    | .error fault => .error (.fileSystem fault)
    | .ok content => ofGlyphs content
  else .error (.configNotFound path)

end Registration

/-- A directory of stored flows. -/
structure Store where
  dir : String
deriving DecidableEq

namespace Store

/-- The extension of the files that hold flows. -/
def extension : String := "json"

/-- The path of the file of a flow. -/
def pathFor (s : Store) (flowName : String) : Except Error String := do
  FlowName.check flowName
  return Path.join s.dir (FlowName.fileName flowName)

/-- Writes a registration, in place of the one that the flow had, and answers with its path. The
directory is made if it is missing. -/
def save (s : Store) (fs : Files) (r : Registration) : Except Error String × Files :=
  match s.pathFor r.flowName with
  | .error e => (.error e, fs)
  | .ok path =>
    match fs.makeDirectories s.dir with
    | (.error fault, made) => (.error (.fileSystem fault), made)
    | (.ok (), made) =>
      match made.write path (Glyph.ofString r.storedText) with
      | .error fault => (.error (.fileSystem fault), made)
      | .ok written => (.ok path, written)

/-- The registration of a flow, if there is one. -/
def load (s : Store) (fs : Files) (flowName : String) : Except Error (Option Registration) := do
  let path ← s.pathFor flowName
  if fs.pathExists path then return some (← Registration.load fs path) else return none

/-- The names of the files that hold flows, in order. -/
def list (s : Store) (fs : Files) : Except Error (List String) :=
  if fs.pathExists s.dir then
    match fs.names s.dir with
    | .error fault => .error (.fileSystem fault)
    | .ok names => .ok ((names.filter (Path.hasExtension extension)).mergeSort (· ≤ ·))
  else .ok []

/-- Removes the file of a flow, and answers whether there was one. -/
def delete (s : Store) (fs : Files) (flowName : String) : Except Error Bool × Files :=
  match s.pathFor flowName with
  | .error e => (.error e, fs)
  | .ok path =>
    if fs.pathExists path then
      match fs.remove path with
      | .error fault => (.error (.fileSystem fault), fs)
      | .ok removed => (.ok true, removed)
    else (.ok false, fs)

/-- Every registration that can be read, in the order of the file names. Files that cannot be
read are passed over. -/
def loadAll (s : Store) (fs : Files) : Except Error (List Registration) := do
  let names ← s.list fs
  return names.filterMap fun name => (Registration.load fs (Path.join s.dir name)).toOption

end Store

end Flowline
