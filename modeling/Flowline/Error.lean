import Flowline.Files.Fault
import Flowline.Json.Fault

/-!
# Errors of configurations

The ways in which registrations, settings and stored files are refused, each with the cause that
a message needs. `Error.message` is the wording; `Error.cause?` is what the part says for itself
whose error is passed on.
-/

namespace Flowline

/-- Why a configuration is refused. -/
inductive Error where
  | configNotFound (path : String)
  /-- The settings are not what settings must be. -/
  | settings
  | blankFlowName
  | unsafeFlowName (name : String)
  | zeroRefreshInterval (flowName : String)
  | flowNotFound (name : String)
  | fileSystem (fault : FileFault)
  | json (fault : Json.Fault)
deriving DecidableEq

namespace Error

/-- The wording for a configuration with a wrong value. -/
def invalidConfiguration (what : String) : String := "invalid configuration: " ++ what

/-- The wording for a flow that cannot be used. -/
def invalidFlow (name what : String) : String := "invalid flow '" ++ name ++ "': " ++ what

def message : Error → String
  | configNotFound path => "configuration file not found: " ++ path
  | settings => "failed to parse settings: the text spells no settings"
  | blankFlowName => invalidConfiguration "missing flowName"
  | unsafeFlowName name =>
    invalidConfiguration
      ("flowName '" ++ Text.EscapeStyle.name.shown name ++ "' is not a valid file name")
  | zeroRefreshInterval flowName => invalidFlow flowName "refreshInterval must be at least 1 second"
  | flowNotFound name => "flow not found: " ++ name
  | fileSystem fault => "IO error: " ++ fault.message
  | json fault => "JSON error: " ++ fault.message

/-- What is behind the error, where it only passes on the error of a part. -/
def cause? : Error → Option String
  | settings => some "the text spells no settings"
  | fileSystem fault => some fault.message
  | json fault => some fault.message
  | _ => none

end Error

end Flowline
