import ThreatModel.Main
import ThreatModel.Proofs.Expression.Printing
import ThreatModel.Proofs.Validation.Clean
import ThreatModel.Proofs.Validation.Repair
import ThreatModel.Proofs.Path.Enumeration
import ThreatModel.Proofs.Analysis.Truncation
import ThreatModel.Proofs.Analysis.Locality
import ThreatModel.Proofs.Analysis.Stored
import ThreatModel.Proofs.Scan.Verdict
import ThreatModel.Proofs.Catalog.Loading
import ThreatModel.Proofs.Scope.Naming
import ThreatModel.Proofs.Scope.Bracket
import ThreatModel.Proofs.Document.Schema
import ThreatModel.Proofs.Report.Element
import ThreatModel.Proofs.Scope.Shadowing
import ThreatModel.Proofs.Analysis.Arrangement
import ThreatModel.Proofs.Analysis.Allocation
import ThreatModel.Proofs.Document.Passes
import ThreatModel.Proofs.Validation.Site
import ThreatModel.Proofs.Validation.Address
import ThreatModel.Proofs.Validation.Nesting
import ThreatModel.Proofs.Analysis.Mirror
import ThreatModel.Proofs.Value.Coherence
import ThreatModel.Proofs.Number.Order
import ThreatModel.Proofs.Value.Denotation
import ThreatModel.Proofs.Analysis.Operands
import ThreatModel.Proofs.Diagram.Order
import ThreatModel.Proofs.Diagram.Problems
import ThreatModel.Proofs.Report.Arrangement
import ThreatModel.Proofs.Report.Table
import ThreatModel.Proofs.Catalog.Index
import ThreatModel.Proofs.Expression.Faults
import ThreatModel.Proofs.Diagram.RoundTrip
import ThreatModel.Proofs.Text.Distance
import ThreatModel.Proofs.Text.Suggestion
import ThreatModel.Proofs.Diagram.Index
import ThreatModel.Proofs.Value.Recognition
