import ThreatModel.Rule
import ThreatModel.Yaml.Data
import ThreatModel.Yaml.Reader

/-!
# Envelopes

A document is read in two passes. The first reads what every document says of itself, and all else as free
data. The second reads the document of the kind that was found.
-/

namespace ThreatModel

/-- A document of which no more than the header is known. -/
structure Envelope where
  apiVersion : String
  kind : String
  header : Header
  /-- The other fields, by name. -/
  others : List (String × Yaml.Data)

namespace Envelope

/-- The fields of an envelope as far as they were read; other fields are last first. -/
structure Slots where
  apiVersion : Option String := none
  kind : Option String := none
  header : Option Header := none
  others : List (String × Yaml.Data) := []

def step (slots : Slots) (field : String) (value : Node) : Except Fault Slots :=
  match field with
  | "apiVersion" => do
    return { slots with apiVersion := ← Node.once field slots.apiVersion value.text }
  | "kind" => do return { slots with kind := ← Node.once field slots.kind value.text }
  | "metadata" => do
    return { slots with header := ← Node.once field slots.header (Header.ofNode .yaml value) }
  | _ => do
    let data ← Yaml.Data.ofNode (Format.yaml.depth.map (· - 1)) value
    return { slots with others := (field, data) :: slots.others }

/-- The table of the other fields. -/
def tableOf (others : List (String × Yaml.Data)) : Yaml.Data :=
  .table (others.map fun (name, data) => (.scalar (.text name), data))

def finish (slots : Slots) : Except Fault Envelope := do
  let apiVersion ← Node.required "apiVersion" slots.apiVersion
  let kind ← Node.required "kind" slots.kind
  let header ← Node.required "metadata" slots.header
  let others := slots.others.reverse
  if (tableOf others).isDistinct then return ⟨apiVersion, kind, header, others⟩ else .error .other

def ofNode (node : Node) : Except Fault Envelope :=
  node.record .yaml ["apiVersion", "kind", "metadata"] step {} finish

/-- Reads the envelope of a YAML text. -/
def ofText (text : String) : Except Fault Envelope := Yaml.readWith ofNode text

/-- The document that the envelope stands for, written out. -/
def toNode (envelope : Envelope) : Node :=
  .table ([(.scalar (.ofText "apiVersion"), .scalar (.ofText envelope.apiVersion)),
    (.scalar (.ofText "kind"), .scalar (.ofText envelope.kind)),
    (.scalar (.ofText "metadata"), envelope.header.toJson.toNode)] ++
    envelope.others.map fun (name, data) => (.scalar (.ofText name), data.toNode))

end Envelope
end ThreatModel
