import ThreatModel.Document.Envelope
import ThreatModel.Document.Kind
import ThreatModel.Threat
import ThreatModel.Yaml.Writer

/-!
# Documents

A document is a rule or an entry of the catalog of threats. Both have a header; the rest depends on the
kind.
-/

namespace ThreatModel

/-- The document of a threat, whose id and name are those of the header. -/
structure ThreatEntry where
  apiVersion : String
  kind : String
  header : Header
  severity : Severity
  mitigation : String := ""
  compliance : Compliance := {}
  deriving DecidableEq

namespace ThreatEntry

def toJson (entry : ThreatEntry) : Json :=
  .object [("apiVersion", .text entry.apiVersion), ("kind", .text entry.kind),
    ("metadata", entry.header.toJson), ("severity", .text entry.severity.name),
    ("mitigation", .text entry.mitigation), ("compliance", entry.compliance.toJson)]

/-- The threat that the document describes. -/
def toThreat (entry : ThreatEntry) : Threat where
  id := entry.header.id
  name := entry.header.name
  severity := entry.severity
  description := entry.header.description.getD ""
  mitigation := entry.mitigation
  compliance := entry.compliance

structure Slots where
  apiVersion : Option String := none
  kind : Option String := none
  header : Option Header := none
  severity : Option Severity := none
  mitigation : Option String := none
  compliance : Option Compliance := none

def step (format : Format) (slots : Slots) (field : String) (value : Node) : Except Fault Slots :=
  match field with
  | "apiVersion" => do
    return { slots with apiVersion := ← Node.once field slots.apiVersion value.text }
  | "kind" => do return { slots with kind := ← Node.once field slots.kind value.text }
  | "metadata" => do
    return { slots with header := ← Node.once field slots.header (Header.ofNode format value) }
  | "severity" => do
    return { slots with severity := ← Node.once field slots.severity (value.choice format Severity.ofName?) }
  | "mitigation" => do
    return { slots with mitigation := ← Node.once field slots.mitigation value.text }
  | "compliance" => do
    return { slots with
      compliance := ← Node.once field slots.compliance (Compliance.ofNode format value) }
  | _ => .error (.unknownField field)

def finish (slots : Slots) : Except Fault ThreatEntry := do
  let apiVersion ← Node.required "apiVersion" slots.apiVersion
  let kind ← Node.required "kind" slots.kind
  let header ← Node.required "metadata" slots.header
  let severity ← Node.required "severity" slots.severity
  return ⟨apiVersion, kind, header, severity, slots.mitigation.getD "", slots.compliance.getD {}⟩

/-- Reads the document of a threat, which has no other fields than its own. -/
def ofNode (format : Format) (node : Node) : Except Fault ThreatEntry :=
  node.record format ["apiVersion", "kind", "metadata", "severity", "mitigation", "compliance"]
    (step format) {} finish

end ThreatEntry

inductive Document
  | rule (content : Rule)
  | threat (entry : ThreatEntry)
  deriving DecidableEq

namespace Document

def header : Document → Header
  | rule content => content.header
  | threat entry => entry.header

def id (document : Document) : String := document.header.id

def kind : Document → DocumentKind
  | rule _ => .rule
  | threat _ => .threat

def rule? : Document → Option Rule
  | rule content => some content
  | threat _ => none

/-- The threat that the document describes, if it is one of a threat. -/
def threat? : Document → Option Threat
  | rule _ => none
  | threat entry => some entry.toThreat

def toJson : Document → Json
  | rule content => content.toJson
  | threat entry => entry.toJson

/-- The document as a YAML text. -/
def toYaml (document : Document) : String := Yaml.write document.toJson

/-- Reads the document of a kind. -/
def ofNode (kind : DocumentKind) (node : Node) : Except Fault Document :=
  match kind with
  | .rule => (Rule.ofNode .yaml node).map rule
  | .threat => (ThreatEntry.ofNode .yaml node).map threat

end Document

/-- The document that an envelope stands for. -/
def Envelope.document (envelope : Envelope) : Except Fault Document :=
  match DocumentKind.ofName? envelope.kind with
  | none => .error (.unknownKind envelope.kind)
  | some kind => Document.ofNode kind envelope.toNode

/-- Reads a document from a YAML text. -/
def Document.ofText (text : String) : Except Fault Document := do
  (← Envelope.ofText text).document

end ThreatModel
