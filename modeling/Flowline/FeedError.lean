/-!
# Errors of status updates

The ways in which an update of a status fails. A subscription tells its listener of them and goes
on.
-/

namespace Flowline

/-- Why an update failed. -/
inductive FeedError where
  /-- The source has nothing to give. -/
  | fetch (source message : String)
  /-- A query failed. -/
  | database (message : String)
  /-- The update is for a flow that is not registered. -/
  | flowNotRegistered (name : String)
deriving DecidableEq

def FeedError.message : FeedError → String
  | fetch source message => "status source '" ++ source ++ "' failed: " ++ message
  | database message => "database error: " ++ message
  | flowNotRegistered name => "flow not registered: " ++ name

end Flowline
