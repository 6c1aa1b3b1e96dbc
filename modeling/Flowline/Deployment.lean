import Flowline.Files.Basic
import Flowline.Settings
import Flowline.Store

/-!
# Deployments

A deployment is a directory with a settings file; the settings say where its flows are stored.
`Deployment.load` takes the path of the directory or of the settings file itself.
-/

namespace Flowline

open Text

/-- The settings together with the directory that they were found in. -/
structure Deployment where
  settings : Settings
  basePath : String
deriving DecidableEq

namespace Deployment

/-- The name of the settings file in a directory. -/
def settingsFile : String := "flowtrack.yaml"

/-- The path of the settings file and the directory that it belongs to. -/
def resolve (fs : Files) (path : String) : String × String :=
  if fs.isDirectory path then (Path.join path settingsFile, path)
  else (path, ((Path.parent? path).filter (· ≠ "")).getD ".")

/-- The settings in a file. -/
def readSettings (fs : Files) (path : String) : Except Error Settings :=
  match fs.read path with
  | .error fault => .error (.fileSystem fault)
  | .ok content =>
    match Glyph.characters? content with
    | none => .error (.fileSystem .notText)
    | some s => Settings.read s

/-- The deployment at a path, whose settings file must exist. -/
def load (fs : Files) (path : String) : Except Error Deployment :=
  let (file, base) := resolve fs path
  if fs.pathExists file then (readSettings fs file).map (⟨·, base⟩)
  else .error (.configNotFound file)

/-- The deployment at a path, with the default settings if there is no settings file. -/
def loadOrDefault (fs : Files) (path : String) : Except Error Deployment :=
  let (file, base) := resolve fs path
  if fs.pathExists file then (readSettings fs file).map (⟨·, base⟩)
  else .ok ⟨default, base⟩

/-- The directory of the stored flows. -/
def configDir (d : Deployment) : String := Path.join d.basePath d.settings.configDir

/-- The stored flows. -/
def store (d : Deployment) : Store := ⟨d.configDir⟩

end Deployment

end Flowline
