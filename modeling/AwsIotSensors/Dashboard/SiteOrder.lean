import AwsIotSensors.Dashboard.CatchUp
import AwsIotSensors.Dashboard.Site

/-!
# Order on the whole page

The order of one tab and what it takes to be up to date (`CatchUp.lean`) carry over to
the whole page, since no tab sees the others.  What has to be in order are the answers
to the polls of one sensor; those of different sensors may overtake each other.
-/

namespace AwsIotSensors.Dashboard

open Runs

variable {clock : ℤ → HourMinute} {page : Dict Name (List Name)} {sensor : Name} {site : Site}
  {world : World}

end AwsIotSensors.Dashboard
