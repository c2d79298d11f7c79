import ThreatModel.Catalog.Loading
import ThreatModel.Command
import ThreatModel.Report
import ThreatModel.Scan
import ThreatModel.Validation

/-!
# What a command comes to

A scan prints its report, and a check prints what it finds. The status says whether all is well: it is 1 where
a scan finds what is severe, where a document has errors, and where what is needed cannot be read.
-/

namespace ThreatModel

/-- What a run prints, what it complains of, and the status with which it ends. -/
structure Outcome where
  status : Nat
  output : String
  complaint : String := ""
  deriving DecidableEq, Repr

/-- The outcome of a run that has to stop. -/
def Outcome.failed (complaint : String) : Outcome := ⟨1, "", complaint⟩

/-- A status: 1 for a failure. -/
def statusOf (failure : Bool) : Nat := if failure then 1 else 0

/-! ## Scans -/

namespace Scan

/-- The findings of the enabled rules of a catalog, evaluated one after the other or at the same time. -/
def findings (settings : Settings) (catalog : Catalog) (diagram : Diagram) : List Finding :=
  if settings.threads = 0 then run settings.maxDepth catalog.rules diagram catalog.threats
  else runApart settings.maxDepth catalog.rules diagram catalog.threats

/-- The report of a scan. -/
def report (settings : Settings) (catalog : Catalog) (diagram : Diagram) : Report :=
  .build (findings settings catalog diagram) diagram catalog.threats (enabled catalog.rules).length

/-- Whether a report has rows that are severe enough to make a scan fail. -/
def isSevere (threshold : Option Severity) (report : Report) : Bool :=
  threshold.any fun severity => 0 < report.countAtLeast severity

/-- A report in a format. -/
def printed (format : ReportFormat) (time : String) (report : Report) : String :=
  match format with
  | .table => report.toTable
  | .json => (report.toJson time).pretty ++ "\n"

/-- The outcome of a scan of a diagram with a catalog. -/
def outcome (settings : Settings) (format : ReportFormat) (threshold : Option Severity) (time : String)
    (catalog : Catalog) (diagram : Diagram) : Outcome :=
  let report := report settings catalog diagram
  { status := statusOf (isSevere threshold report), output := printed format time report }

end Scan

/-! ## Checks -/

namespace Validation

/-- The path of a file below a directory. -/
def pathBelow (directory : String) (names : List String) : String :=
  (if directory.toList.getLast? = some '/' then directory else directory ++ "/") ++ "/".intercalate names

/-- The line of a file that cannot be loaded, if it cannot. -/
def failureLine? (directory : String) (result : LoadResult) : Option String :=
  match result.status with
  | .failed error => some s!"{pathBelow directory result.path}: error: {error.message}"
  | _ => none

/-- The line of a diagnostic of a document. -/
def diagnosticLine (id : String) (diagnostic : Diagnostic) : String :=
  let degree := if diagnostic.isError then "error" else "warning"
  let hint := match diagnostic.problem.suggestion? with
    | some text => s!" ({text})"
    | none => ""
  s!"{id} [{diagnostic.place.text}]: {degree}: {diagnostic.problem.message}{hint}"

/-- The lines of a document, errors first. -/
def documentLines (id : String) (diagnostics : List Diagnostic) : List String :=
  (errorsIn diagnostics ++ warningsIn diagnostics).map (diagnosticLine id)

/-- The outcome of a check of loaded documents. -/
def outcome (settings : Settings) (strict : Bool) (results : List LoadResult) (catalog : Catalog) :
    Outcome :=
  let failures := results.filterMap (failureLine? settings.rulesDirectory)
  let checked := catalog.documents.map fun document =>
    (document.id, problems settings.maxDepth catalog.threats document)
  let diagnostics := checked.flatMap (·.2)
  let errors := failures.length + (errorsIn diagnostics).length
  let warnings := (warningsIn diagnostics).length
  let summary :=
    s!"{catalog.documents.length} document(s) checked: {errors} error(s), {warnings} warning(s)"
  let lines := failures ++ checked.flatMap (fun (id, found) => documentLines id found) ++ [summary]
  { status := statusOf (0 < errors || (strict && 0 < warnings))
    output := String.join (lines.map (· ++ "\n")) }

end Validation

/-! ## Commands -/

/-- The outcome of a task: `rules` is what was found in the place of the rules, and `diagram` the text in that
of the diagram. -/
def Task.outcome (task : Task) (settings : Settings) (rules : Option FileTree) (diagram : Option String)
    (time : String) : Outcome :=
  match Catalog.empty.loadFrom settings.rulesDirectory rules, task with
  | .error error, _ => .failed error.message
  | .ok (results, catalog), .validate strict => Validation.outcome settings strict results catalog
  | .ok (_, catalog), .scan format threshold =>
    match diagram.map Diagram.ofText with
    | none => .failed s!"diagram '{settings.diagramPath}' cannot be read"
    | some (.error fault) => .failed s!"diagram '{settings.diagramPath}': {fault.message}"
    | some (.ok diagram) => Scan.outcome settings format threshold time catalog diagram

end ThreatModel
