import ThreatModel.Json
import ThreatModel.Text.Case

/-!
# Threats

A threat is a named security issue with a severity. Severities are ordered from `info` to `critical`.
-/

namespace ThreatModel

inductive Severity
  | info | low | medium | high | critical
  deriving DecidableEq, Repr

namespace Severity

/-- All severities, the least first. -/
def all : List Severity := [info, low, medium, high, critical]

/-- The place in the order of severities, from 0. -/
def rank : Severity → Nat
  | info => 0
  | low => 1
  | medium => 2
  | high => 3
  | critical => 4

def name : Severity → String
  | info => "info"
  | low => "low"
  | medium => "medium"
  | high => "high"
  | critical => "critical"

/-- The severity of a name as documents spell it. -/
def ofName? (name : String) : Option Severity := all.find? (·.name = name)

/-- The severity of a name as people write it, or the name in small letters if there is none. -/
def parse (text : String) : Except String Severity :=
  let name := Text.lower text
  match ofName? name with
  | some severity => .ok severity
  | none => .error name

/-- What is said of a name, in small letters, that no severity has. -/
def unknownMessage (name : String) : String := s!"unknown severity: '{name}'"

theorem mem_all (severity : Severity) : severity ∈ all := by cases severity <;> decide

theorem rank_inj {left right : Severity} (h : left.rank = right.rank) : left = right := by
  cases left <;> cases right <;> simp_all [rank]

theorem ofName?_name (severity : Severity) : ofName? severity.name = some severity := by
  cases severity <;> decide

end Severity

/-- Cross-references of a threat to lists that others keep. -/
structure Compliance where
  cwe : List String := []
  owasp : List String := []
  stride : List String := []
  deriving DecidableEq, Repr

namespace Compliance

def toJson (compliance : Compliance) : Json :=
  .object [("cwe", .array (compliance.cwe.map .text)), ("owasp", .array (compliance.owasp.map .text)),
    ("stride", .array (compliance.stride.map .text))]

structure Slots where
  cwe : Option (List String) := none
  owasp : Option (List String) := none
  stride : Option (List String) := none

def step (slots : Slots) (field : String) (value : Node) : Except Fault Slots :=
  match field with
  | "cwe" => do return { slots with cwe := ← Node.once field slots.cwe value.texts }
  | "owasp" => do return { slots with owasp := ← Node.once field slots.owasp value.texts }
  | "stride" => do return { slots with stride := ← Node.once field slots.stride value.texts }
  | _ => do
    value.ignore
    return slots

def finish (slots : Slots) : Except Fault Compliance :=
  .ok ⟨slots.cwe.getD [], slots.owasp.getD [], slots.stride.getD []⟩

/-- Reads cross-references, all of which are optional; other fields are ignored. -/
def ofNode (format : Format) (node : Node) : Except Fault Compliance :=
  node.record format ["cwe", "owasp", "stride"] step {} finish

end Compliance

structure Threat where
  id : String
  name : String
  severity : Severity
  description : String := ""
  mitigation : String := ""
  compliance : Compliance := {}
  deriving DecidableEq, Repr

namespace Threat

def toJson (threat : Threat) : Json :=
  .object [("id", .text threat.id), ("name", .text threat.name), ("severity", .text threat.severity.name),
    ("description", .text threat.description), ("mitigation", .text threat.mitigation),
    ("compliance", threat.compliance.toJson)]

structure Slots where
  id : Option String := none
  name : Option String := none
  severity : Option Severity := none
  description : Option String := none
  mitigation : Option String := none
  compliance : Option Compliance := none

def step (format : Format) (slots : Slots) (field : String) (value : Node) : Except Fault Slots :=
  match field with
  | "id" => do return { slots with id := ← Node.once field slots.id value.text }
  | "name" => do return { slots with name := ← Node.once field slots.name value.text }
  | "severity" => do
    return { slots with severity := ← Node.once field slots.severity (value.choice format Severity.ofName?) }
  | "description" => do return { slots with description := ← Node.once field slots.description value.text }
  | "mitigation" => do return { slots with mitigation := ← Node.once field slots.mitigation value.text }
  | "compliance" => do
    return { slots with compliance := ← Node.once field slots.compliance (Compliance.ofNode format value) }
  | _ => do
    value.ignore
    return slots

def finish (slots : Slots) : Except Fault Threat := do
  let id ← Node.required "id" slots.id
  let name ← Node.required "name" slots.name
  let severity ← Node.required "severity" slots.severity
  return ⟨id, name, severity, slots.description.getD "", slots.mitigation.getD "",
    slots.compliance.getD {}⟩

/-- Reads a threat; fields that it does not have are ignored. -/
def ofNode (format : Format) (node : Node) : Except Fault Threat :=
  node.record format ["id", "name", "severity", "description", "mitigation", "compliance"]
    (step format) {} finish

/-- The first of some threats that has an id. -/
def find? (threats : List Threat) (id : String) : Option Threat := threats.find? (·.id = id)

end Threat
end ThreatModel
