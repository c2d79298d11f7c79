import ThreatModel.Settings
import ThreatModel.Threat

/-!
# Commands

What can be asked for: a scan of a diagram, or a check of the documents of a directory. What a command leaves
open is for the settings to say.
-/

namespace ThreatModel

/-- How a report is printed. -/
inductive ReportFormat
  | table | json
  deriving DecidableEq, Repr

def ReportFormat.ofName? : String → Option ReportFormat
  | "table" => some .table
  | "json" => some .json
  | _ => none

inductive Task
  /-- Scan a diagram. With a threshold, findings that are at least so severe make the scan fail. -/
  | scan (format : ReportFormat) (threshold : Option Severity)
  /-- Check all documents. A strict check also fails on warnings. -/
  | validate (strict : Bool)
  deriving DecidableEq, Repr

structure Command where
  rulesDirectory : Option String
  maxDepth : Option Nat
  diagramPath : Option String
  threads : Option Nat
  task : Task
  deriving DecidableEq, Repr

/-- The settings under which a command runs. -/
def Command.settings (command : Command) (environment : Environment) : Settings :=
  let usual := Settings.ofEnvironment environment
  { usual with
    rulesDirectory := command.rulesDirectory.getD usual.rulesDirectory
    maxDepth := command.maxDepth.getD usual.maxDepth
    diagramPath := command.diagramPath.getD usual.diagramPath
    threads := command.threads.getD usual.threads }

end ThreatModel
