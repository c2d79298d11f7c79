import ThreatModel.Analysis
import ThreatModel.Json.Writer
import ThreatModel.Text.Blank

/-!
# Reports

A report joins findings with their threats and elements, the most severe first, and counts them by
severity. It is written as JSON or as a table.
-/

namespace ThreatModel

/-- A finding with what is known of its threat and element. -/
structure ReportRow where
  rule : String
  threat : String
  threatName : String
  severity : Severity
  category : Category
  shape : String
  /-- The element of the shape, if the diagram has one. -/
  elementId : Option String
  elementName : Option String
  mitigation : String
  deriving DecidableEq, Repr

structure Report where
  rulesEvaluated : Nat
  elements : Nat
  rows : List ReportRow
  /-- How many rows each severity has, the least severity first; none that has no rows. -/
  counts : List (Severity × Nat)
  deriving DecidableEq, Repr

namespace Report

/-- The row of a finding; none if its threat is unknown. -/
def rowOf? (diagram : Diagram) (threats : List Threat) (finding : Finding) : Option ReportRow := do
  let threat ← Threat.find? threats finding.threat
  let element := (diagram.ofCategory finding.category).find? (·.shape = finding.shape)
  return {
    rule := finding.rule
    threat := threat.id
    threatName := threat.name
    severity := threat.severity
    category := finding.category
    shape := finding.shape
    elementId := element.map Element.id
    elementName := element.map Element.displayName
    mitigation := threat.mitigation }

/-- Whether a row may stand before another. -/
def precedes (left right : ReportRow) : Bool := right.severity.rank ≤ left.severity.rank

/-- Counts one more row of a severity; the least severity stays first. -/
def tally (severity : Severity) : List (Severity × Nat) → List (Severity × Nat)
  | [] => [(severity, 1)]
  | (other, count) :: rest =>
    if severity.rank < other.rank then (severity, 1) :: (other, count) :: rest
    else if severity = other then (other, count + 1) :: rest
    else (other, count) :: tally severity rest

/-- The severities that occur, with how many rows each has. -/
def countsOf (rows : List ReportRow) : List (Severity × Nat) :=
  rows.foldl (fun counts row => tally row.severity counts) []

/-- The report of findings. -/
def build (findings : List Finding) (diagram : Diagram) (threats : List Threat) (rulesEvaluated : Nat) :
    Report :=
  let rows := (findings.filterMap (rowOf? diagram threats)).mergeSort precedes
  ⟨rulesEvaluated, diagram.size, rows, countsOf rows⟩

/-- The sum of some counts. -/
def total : List (Severity × Nat) → Nat
  | [] => 0
  | (_, count) :: rest => count + total rest

/-- How many rows have a severity or a greater one. -/
def countAtLeast (report : Report) (severity : Severity) : Nat :=
  total (report.counts.filter fun (other, _) => severity.rank ≤ other.rank)

/-! ## JSON -/

def rowJson (row : ReportRow) : Json :=
  let optional (name : String) : Option String → List (String × Json)
    | some content => [(name, .text content)]
    | none => []
  .object ([("rule", .text row.rule), ("threat", .text row.threat), ("threat_name", .text row.threatName),
    ("severity", .text row.severity.name), ("element", .text row.category.name),
    ("shape", .text row.shape)] ++
    optional "element_id" row.elementId ++ optional "element_name" row.elementName ++
    (if row.mitigation.isEmpty then [] else [("mitigation", .text row.mitigation)]))

/-- The fields of a report, without the time at which it was made. -/
def fields (report : Report) : List (String × Json) :=
  [("rules_evaluated", .int report.rulesEvaluated), ("elements", .int report.elements),
    ("findings", .array (report.rows.map rowJson)),
    ("counts", .object (report.counts.map fun (severity, count) => (severity.name, .int count)))]

/-- The report as JSON, with the time at which it was made. -/
def toJson (report : Report) (time : String) : Json :=
  .object (("generated_at", .text time) :: report.fields)

/-! ## Table -/

def headings : List String := ["SEVERITY", "THREAT", "RULE", "ELEMENT", "SHAPE", "NAME"]

/-- The cells of a row, under the headings. -/
def cells (row : ReportRow) : List String :=
  [row.severity.name, row.threatName, row.rule, row.category.name, row.shape, row.elementName.getD ""]

/-- Widens columns to hold the cells of one more row. -/
def widen (widths : List Nat) (row : List String) : List Nat :=
  List.zipWith (fun width cell => max width cell.length) widths row

/-- The number of characters of the longest cell of each column, its heading included. -/
def widths (rows : List (List String)) : List Nat :=
  rows.foldl widen (headings.map String.length)

/-- A cell filled up with blanks to the width of its column. -/
def pad (width : Nat) (cell : String) : List Char :=
  cell.toList ++ List.replicate (width - cell.length) ' '

/-- A line of the table: padded cells, two blanks between them and none at the end. -/
def line (widths : List Nat) (row : List String) : List Char :=
  Text.trimEnd ([' ', ' '].intercalate (List.zipWith pad widths row))

/-- The last line: how many findings there are, and how many of each severity. -/
def summary (report : Report) : String :=
  let counts := report.counts.reverse.map fun (severity, count) => s!"{count} {severity.name}"
  let separator := if counts.isEmpty then "" else ": "
  let start := s!"{report.rows.length} finding(s) from {report.rulesEvaluated} rule(s) over "
  start ++ s!"{report.elements} element(s)" ++ separator ++ ", ".intercalate counts

/-- The lines of the table, the headings first. -/
def lines (report : Report) : List (List Char) :=
  let rows := report.rows.map cells
  let widths := widths rows
  line widths headings :: rows.map (line widths)

/-- The report as a table. -/
def toTable (report : Report) : String :=
  String.join (report.lines.map fun line => String.ofList line ++ "\n") ++ "\n" ++ report.summary ++ "\n"

end Report
end ThreatModel
