import ThreatModel.Rule.Condition
import ThreatModel.Diagram.Category

/-!
# Rules

A rule links the elements of one category to one threat by a condition. Its document has a header, the
id of the threat, the category, and the condition under the key of its form.
-/

namespace ThreatModel

/-- What every document says of itself. -/
structure Header where
  id : String
  name : String
  description : Option String := none
  tags : Option (List String) := none
  enabled : Bool := true
  deriving DecidableEq, Repr

namespace Header

def toJson (header : Header) : Json :=
  let description := match header.description with
    | some text => .text text
    | none => .null
  let tags := match header.tags with
    | some tags => .array (tags.map .text)
    | none => .null
  .object [("id", .text header.id), ("name", .text header.name), ("description", description),
    ("tags", tags), ("enabled", .truth header.enabled)]

structure Slots where
  id : Option String := none
  name : Option String := none
  description : Option (Option String) := none
  tags : Option (Option (List String)) := none
  enabled : Option Bool := none

def step (slots : Slots) (field : String) (value : Node) : Except Fault Slots :=
  match field with
  | "id" => do return { slots with id := ← Node.once field slots.id value.text }
  | "name" => do return { slots with name := ← Node.once field slots.name value.text }
  | "description" => do
    return { slots with description := ← Node.once field slots.description (value.optional Node.text) }
  | "tags" => do return { slots with tags := ← Node.once field slots.tags (value.optional Node.texts) }
  | "enabled" => do return { slots with enabled := ← Node.once field slots.enabled value.truth }
  | _ => .error (.unknownField field)

def finish (slots : Slots) : Except Fault Header := do
  let id ← Node.required "id" slots.id
  let name ← Node.required "name" slots.name
  return ⟨id, name, slots.description.join, slots.tags.join, slots.enabled.getD true⟩

/-- Reads a header, which has no other fields than its own. -/
def ofNode (format : Format) (node : Node) : Except Fault Header :=
  node.record format ["id", "name", "description", "tags", "enabled"] step {} finish

end Header

structure Rule where
  apiVersion : String
  kind : String
  header : Header
  /-- The id of the threat that the rule finds. -/
  threat : String
  /-- The category of the elements that the rule looks at. -/
  category : Category
  condition : Condition
  deriving DecidableEq

namespace Rule

def id (rule : Rule) : String := rule.header.id

def isEnabled (rule : Rule) : Bool := rule.header.enabled

/-- The field of a condition. A binding cannot stand alone, so it is written as a list of itself. -/
def conditionField : Condition → String × Json
  | .list combinator children => (combinator.key, .array (Condition.toJsons children))
  | .design expression => ("design", .text expression)
  | .binding expression => ("designs", .array (Condition.toJsons [.binding expression]))

def toJson (rule : Rule) : Json :=
  .object [("apiVersion", .text rule.apiVersion), ("kind", .text rule.kind),
    ("metadata", rule.header.toJson), ("threat", .text rule.threat),
    ("element", .text rule.category.name), conditionField rule.condition]

/-! ## Reading -/

structure Slots where
  apiVersion : Option String := none
  kind : Option String := none
  header : Option Header := none
  threat : Option String := none
  category : Option Category := none
  condition : Condition.Slots := {}

def step (format : Format) (slots : Slots) (field : String) (value : Node) : Except Fault Slots :=
  let depth := format.depth.map (· - 1)
  match field with
  | "apiVersion" => do
    return { slots with apiVersion := ← Node.once field slots.apiVersion value.text }
  | "kind" => do return { slots with kind := ← Node.once field slots.kind value.text }
  | "metadata" => do
    return { slots with header := ← Node.once field slots.header (Header.ofNode format value) }
  | "threat" => do return { slots with threat := ← Node.once field slots.threat value.text }
  | "element" => do
    return { slots with
      category := ← Node.once field slots.category (value.choice format Category.ofName?) }
  | "designs" | "either" | "design" => do
    let children := Condition.readChildren format depth true value
    return { slots with condition := ← slots.condition.take field value children }
  | _ => .error (.unknownField field)

/-- The one condition of a rule. -/
def conditionOf (id : String) (slots : Condition.Slots) : Except Fault Condition :=
  match slots.found with
  | [] => .error (.formlessRule id)
  | [(_, condition)] => .ok condition
  | found => .error (.manyRuleForms id (found.map (·.1)))

def finish (slots : Slots) : Except Fault Rule := do
  let apiVersion ← Node.required "apiVersion" slots.apiVersion
  let kind ← Node.required "kind" slots.kind
  let header ← Node.required "metadata" slots.header
  let threat ← Node.required "threat" slots.threat
  let category ← Node.required "element" slots.category
  let condition ← conditionOf header.id slots.condition
  return ⟨apiVersion, kind, header, threat, category, condition⟩

/-- Reads a rule, which has no other fields than its own. -/
def ofNode (format : Format) (node : Node) : Except Fault Rule :=
  node.record format
    ["apiVersion", "kind", "metadata", "threat", "element", "designs", "either", "design"]
    (step format) {} finish

end Rule
end ThreatModel
