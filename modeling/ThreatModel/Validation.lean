import ThreatModel.Document
import ThreatModel.Analysis
import ThreatModel.Text.Blank
import ThreatModel.Text.Distance
import ThreatModel.Validation.Condition

/-!
# Checking documents

A rule is checked against the threats that are known, so that a rule without errors and warnings can be
evaluated without surprises. The document of a threat is checked on its own.
-/

namespace ThreatModel.Validation

/-- The version that documents have. -/
def version : String := "v1"

def versionProblems (found : String) : List Diagnostic :=
  if found = version then [] else [⟨[.key "apiVersion"], .wrongVersion found⟩]

def kindProblems (expected : DocumentKind) (found : String) : List Diagnostic :=
  if found = expected.name then [] else [⟨[.key "kind"], .wrongKind expected found⟩]

/-- The diagnostics of an id; `odd` is the problem of one that is not in small letters with hyphens. -/
def idProblems (odd : String → Problem) (id : String) : List Diagnostic :=
  let place := Place.ofKeys ["metadata", "id"]
  if Text.isVacant id then [⟨place, .emptyId⟩]
  else if Text.isKebab id then []
  else [⟨place, odd id⟩]

def nameProblems (name : String) : List Diagnostic :=
  if Text.isVacant name then [⟨.ofKeys ["metadata", "name"], .emptyName⟩] else []

/-- The diagnostics of what a document says of itself. -/
def headerProblems (kind : DocumentKind) (odd : String → Problem) (foundVersion foundKind : String)
    (header : Header) : List Diagnostic :=
  versionProblems foundVersion ++ kindProblems kind foundKind ++ idProblems odd header.id ++
    nameProblems header.name

/-! ## Rules -/

/-- The diagnostics of a rule's reference to a threat. -/
def threatProblems (threats : List Threat) (id : String) : List Diagnostic :=
  if Text.isVacant id then [⟨[.key "threat"], .emptyThreat⟩]
  else if threats.any (·.id = id) then []
  else [⟨[.key "threat"], .unknownThreat id (Text.suggestion? id (threats.map Threat.id))⟩]

/-- The diagnostics of a rule. -/
def ruleProblems (maxDepth : Nat) (threats : List Threat) (rule : Rule) : List Diagnostic :=
  headerProblems .rule .oddRuleId rule.apiVersion rule.kind rule.header ++
    threatProblems threats rule.threat ++ conditionProblems maxDepth rule.condition

/-! ## Threats -/

/-- The categories of threats that are known as STRIDE. -/
def strideCategories : List String :=
  ["Spoofing", "Tampering", "Repudiation", "Information Disclosure", "Denial of Service",
    "Elevation of Privilege"]

/-- Whether a text is the name of a weakness: `CWE-` and a number. -/
def isWeakness (name : String) : Bool :=
  match name.toList with
  | 'C' :: 'W' :: 'E' :: '-' :: digits => !digits.isEmpty && digits.all Decimal.isDigit
  | _ => false

/-- The problem of a weakness, if any. -/
def weaknessProblem? (name : String) : Option Problem :=
  if isWeakness name then none else some (.oddWeakness name)

/-- The problem of a category of threats, if any. -/
def strideProblem? (name : String) : Option Problem :=
  if name ∈ strideCategories then none
  else some (.unknownStride name (Text.suggestion? name strideCategories))

/-- The diagnostics of a list of cross-references. -/
def referenceProblems (field : String) (problem? : String → Option Problem) (index : Nat) :
    List String → List Diagnostic
  | [] => []
  | name :: rest =>
    let place : Place := [.key "compliance", .key field, .index index]
    ((problem? name).map fun problem => Diagnostic.mk place problem).toList ++
      referenceProblems field problem? (index + 1) rest

/-- The diagnostics of the document of a threat. -/
def entryProblems (entry : ThreatEntry) : List Diagnostic :=
  headerProblems .threat .oddThreatId entry.apiVersion entry.kind entry.header ++
    (if Text.isVacant entry.mitigation then [⟨[.key "mitigation"], .noMitigation⟩] else []) ++
    referenceProblems "cwe" weaknessProblem? 0 entry.compliance.cwe ++
    referenceProblems "stride" strideProblem? 0 entry.compliance.stride

/-! ## Documents -/

/-- The diagnostics of a document. -/
def problems (maxDepth : Nat) (threats : List Threat) : Document → List Diagnostic
  | .rule rule => ruleProblems maxDepth threats rule
  | .threat entry => entryProblems entry

/-- The diagnostics of a YAML text, which may not read as a document at all. -/
def textProblems (threats : List Threat) (text : String) : List Diagnostic :=
  match Document.ofText text with
  | .ok document => problems Analyzer.defaultMaxDepth threats document
  | .error fault => [⟨[], .unreadable fault⟩]

end ThreatModel.Validation
