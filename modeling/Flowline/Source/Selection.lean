import Flowline.Source.Database
import Flowline.Source.Mock

/-!
# The source of a deployment

The settings choose a source. A database must be reached before it can be asked, which needs more
than settings, so here only the simulation can be had.
-/

namespace Flowline.Settings

/-- The source that the settings choose. -/
def chosenSource (s : Settings) (now : Time.Instant) :
    Except Database.Refusal (Source Mock.Memory) :=
  match s.source with
  | .mock => .ok (Mock.source now (some (1000 * max s.mock.intervalSecs 1)))
  | .database => .error (if s.database.url.isNone then .noUrl else .noConnection)

end Flowline.Settings
