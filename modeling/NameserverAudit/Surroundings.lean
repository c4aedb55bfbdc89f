import NameserverAudit.Exchange.Journal
import NameserverAudit.Settings

/-!
What a run finds and does not change: the environment, the network and the time of day.
-/

namespace NameserverAudit

structure Surroundings where
  environment : Environment
  network : Network
  now : Instant

end NameserverAudit
