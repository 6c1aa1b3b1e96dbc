import Flowline.Command.Perform
import Std.Time.DateTime.Timestamp

/-!
# The program

Carries out a command line on the real file system. What the command looks at is first read into
a tree of files, `Command.perform` works on the tree, and then the changes are written back.
-/

namespace Flowline.Program

open Command Text

/-! ## The file system -/

/-- The tree with what really stands at a path. Of a directory only that it is one is read. -/
def readEntry (fs : Files) (path : String) : IO Files := do
  try
    let real ← IO.FS.realPath path
    if ← real.isDir then return (fs.makeDirectories path).2
    let content := Glyph.ofBytes (← IO.FS.readBinFile real).toList
    let made := match Path.parent? path with
      | some parent => (fs.makeDirectories parent).2
      | none => fs
    match made.write path content with
    | .ok written => return written
    | .error _ => return made
  catch _ => return fs

/-- The tree with everything that really stands in a directory. -/
def readDirectory (fs : Files) (path : String) : IO Files := do
  let fs ← readEntry fs path
  try
    (← (← IO.FS.realPath path).readDir).foldlM
      (fun fs e => readEntry fs (Path.join path e.fileName)) fs
  catch _ => return fs

/-- The paths that an action looks at, besides those of its deployment. -/
def pathsOf : Action → List String
  | .init path _ => [path, Path.join path Deployment.settingsFile, Path.join path "configs",
      Path.join path exampleFile]
  | .validate file _ | .register file => [file]
  | _ => []

/-- The tree with everything that a command looks at. -/
def readFor (i : Invocation) : IO Files := do
  let working := (← IO.currentDir).toString
  let fs := (Files.empty.makeDirectories working).2
  let fs := { fs with workingPlace := (Path.parts working).filter (· ≠ "") }
  let fs ← (pathsOf i.action).foldlM readEntry fs
  let fs ← [i.config, Path.join i.config Deployment.settingsFile].foldlM readEntry fs
  match Deployment.loadOrDefault fs i.config with
  | .ok d => readDirectory fs d.configDir
  | .error _ => return fs

/-- The path of a place. -/
def placePath (place : List String) : String := "/" ++ "/".intercalate place

/-- Makes the real files what they are in a tree, where it differs from the tree that was read. -/
def writeChanges (before after : Files) : IO PUnit := do
  for (place, e) in after.entries.entries do
    if before.get? place ≠ some e then
      match e with
      | .directory => IO.FS.createDirAll (placePath place)
      | .file content =>
        IO.FS.writeBinFile (placePath place) ⟨(content.flatMap Glyph.bytes).toArray⟩
  for (place, _) in before.entries.entries do
    if (after.get? place).isNone then IO.FS.removeFile (placePath place)

/-! ## Going on until stopped -/

/-- Waits for milliseconds. -/
partial def wait (ms : Nat) : IO PUnit := do
  let step := min ms 3600000
  IO.sleep step.toUInt32
  if step < ms then wait (ms - step)

/-- Shows updates, of which some have been seen, up to a limit if there is one. -/
partial def follow (limit : Option Nat) (seen : Nat) (w : Watch) : IO PUnit := do
  let (text, next) := w.look
  let output ← IO.getStdout
  output.putStr text
  output.flush
  if Watch.goesOn limit (seen + 1) then
    wait w.period
    follow limit (seen + 1) next

/-- Keeps statuses fresh. -/
partial def serve (service : Service Mock.Memory) : IO PUnit := do
  wait 1000
  serve (service.advance 1000)

/-- The time by the clock. -/
def clock : IO Time.Instant :=
  return .ofNanoseconds (← Std.Time.Timestamp.now).toNanosecondsSinceUnixEpoch.val

/-- Carries out a command. -/
def carryOut (i : Invocation) : IO UInt32 := do
  let fs ← readFor i
  match perform fs (← clock) i with
  | .done report after =>
    writeChanges fs after
    IO.print report.output
    unless report.errors.isEmpty do IO.eprintln report.errors
    return report.code.toUInt32
  | .watching w limit => follow limit 0 w; return 0
  | .serving service => serve service; return 0

def usage : String :=
  "usage: flowtrack [-c PATH] [-v] COMMAND

commands:
  init [PATH] [-n NAME]      make a new deployment
  validate FILE [--json]     check a flow without registering it
  flow list                  list the registered flows
  flow show NAME [--json]    show the stages of a flow
  flow register FILE         register a flow
  flow remove NAME           remove a flow
  status NAME [--json]       ask once for the status of a flow
  watch NAME [--ticks N]     follow the status of a flow
  run                        keep the statuses of all flows fresh"

end Flowline.Program

/-- Carries out the command line. -/
def main (args : List String) : IO UInt32 := do
  let config := (← IO.getEnv "FLOWTRACK_CONFIG").getD Flowline.Command.defaultConfig
  match Flowline.Command.Invocation.ofArguments? config args with
  | some invocation => Flowline.Program.carryOut invocation
  | none => IO.eprintln Flowline.Program.usage; return 2
