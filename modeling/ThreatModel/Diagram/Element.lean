import ThreatModel.Diagram.Category
import ThreatModel.Json

/-!
# Elements

An element has an id, metadata of the drawing, relations to other elements and free attributes. The
attributes are whatever else its object holds.
-/

namespace ThreatModel

/-- What a relation points at, by id. -/
inductive Relation
  | one (target : String)
  | many (targets : List String)
  deriving DecidableEq, Repr

namespace Relation

/-- The ids that a relation points at, in order. -/
def targets : Relation → List String
  | one target => [target]
  | many targets => targets

/-- The relation that a value describes: an id, or a list of ids. -/
def ofJson? : Json → Option Relation
  | .text target => some (one target)
  | .array items => (items.mapM textOf?).map many
  | _ => none
where
  textOf? : Json → Option String
    | .text content => some content
    | _ => none

def toJson : Relation → Json
  | one target => .text target
  | many targets => .array (targets.map .text)

end Relation

/-- What the drawing says of an element. -/
structure ElementMetadata where
  category : Category
  shape : String
  name : Option String
  /-- Anything else that the drawing tool keeps, in the order of names. -/
  extra : List (String × Json)

structure Element where
  id : String
  metadata : ElementMetadata
  /-- The relations of the element, in the order of their names. -/
  attached : List (String × Relation)
  /-- The free attributes, in the order of their names. -/
  attributes : List (String × Json)

namespace ElementMetadata

/-- The object of metadata. What the drawing tool keeps is put in last, so it stays where it has the name of another
field. -/
def toJson (metadata : ElementMetadata) : Json :=
  .ofFields ([("element", .text metadata.category.name), ("shape", .text metadata.shape)] ++
    (metadata.name.map fun name => ("name", .text name)).toList ++ metadata.extra)

/-- The fields of metadata as far as they were read. -/
structure Slots where
  category : Option Category := none
  shape : Option String := none
  name : Option (Option String) := none
  extra : List (String × Json) := []

def step (format : Format) (slots : Slots) (field : String) (value : Node) : Except Fault Slots :=
  match field with
  | "element" => do
    return { slots with category := ← Node.once field slots.category (value.choice format Category.ofName?) }
  | "shape" => do return { slots with shape := ← Node.once field slots.shape value.text }
  | "name" => do return { slots with name := ← Node.once field slots.name (value.optional Node.text) }
  | _ => do
    let free ← Json.ofNode (format.depth.map (· - 4)) value
    return { slots with extra := Json.insertField field free slots.extra }

def finish (slots : Slots) : Except Fault ElementMetadata := do
  let category ← Node.required "element" slots.category
  let shape ← Node.required "shape" slots.shape
  return ⟨category, shape, slots.name.join, slots.extra⟩

/-- Reads metadata, which is never a list. -/
def ofNode (format : Format) (node : Node) : Except Fault ElementMetadata :=
  node.record { format with positional := false } [] (step format) {} finish

end ElementMetadata

namespace Element

def category (element : Element) : Category := element.metadata.category

def shape (element : Element) : String := element.metadata.shape

/-- The name for readers, which is the id of a nameless element. -/
def displayName (element : Element) : String := element.metadata.name.getD element.id

/-- The free attribute of a name. -/
def attribute? (element : Element) (name : String) : Option Json := Json.field? name element.attributes

/-- The relation of a name. -/
def relation? (element : Element) (name : String) : Option Relation :=
  (element.attached.find? (·.1 = name)).map (·.2)

/-- The object of an element, the free attributes put in last. -/
def toJson (element : Element) : Json :=
  .ofFields ([("id", .text element.id), ("metadata", element.metadata.toJson),
    ("attached", .object (element.attached.map fun (name, relation) => (name, relation.toJson)))] ++
    element.attributes)

/-! ## Reading -/

/-- Reads the relations of an element; of several relations of a name the last stays. -/
def attachedOf (format : Format) (node : Node) : Except Fault (List (String × Relation)) :=
  match node with
  | .table entries => do
    let fields ← entries.mapM fun (key, value) => do
      let name ← key.text
      let relation ← relationOf value
      return (name, relation)
    return (fields.foldl (fun sorted (name, relation) => insertRelation name relation sorted) [])
  | .unreadable | .cut => .error .other
  | _ => .error .wrongType
where
  relationOf (value : Node) : Except Fault Relation := do
    match Relation.ofJson? (← Json.ofNode (format.depth.map (· - 4)) value) with
    | some relation => return relation
    | none => .error .other
  insertRelation (name : String) (relation : Relation) :
      List (String × Relation) → List (String × Relation)
    | [] => [(name, relation)]
    | (key, old) :: rest =>
      if name < key then (name, relation) :: (key, old) :: rest
      else if name = key then (name, relation) :: rest
      else (key, old) :: insertRelation name relation rest

/-- The fields of an element as far as they were read. -/
structure Slots where
  id : Option String := none
  metadata : Option ElementMetadata := none
  attached : Option (List (String × Relation)) := none
  attributes : List (String × Json) := []

def step (format : Format) (slots : Slots) (field : String) (value : Node) : Except Fault Slots :=
  match field with
  | "id" => do return { slots with id := ← Node.once field slots.id value.text }
  | "metadata" => do
    return { slots with metadata := ← Node.once field slots.metadata (ElementMetadata.ofNode format value) }
  | "attached" => do
    return { slots with attached := ← Node.once field slots.attached (attachedOf format value) }
  | _ => do
    let free ← Json.ofNode (format.depth.map (· - 3)) value
    return { slots with attributes := Json.insertField field free slots.attributes }

def finish (slots : Slots) : Except Fault Element := do
  let id ← Node.required "id" slots.id
  let metadata ← Node.required "metadata" slots.metadata
  return ⟨id, metadata, slots.attached.getD [], slots.attributes⟩

/-- Reads an element, which is never a list. -/
def ofNode (format : Format) (node : Node) : Except Fault Element :=
  node.record { format with positional := false } [] (step format) {} finish

end Element
end ThreatModel
