import ThreatModel.Diagram.Element
import ThreatModel.Json.Reader

/-!
# Diagrams

A diagram is a list of elements with different ids. Relations are checked on request only: each name
must be one that the category of its element has, and each target an element of an allowed category.
-/

namespace ThreatModel

/-- Elements in the order in which they were drawn, no two of which have the same id. -/
structure Diagram where
  elements : List Element
  nodup : (elements.map Element.id).Nodup

/-- What is wrong with a relation of an element. -/
inductive RelationProblem
  | unknownTarget (element relation target : String)
  | invalidRelation (element : String) (category : Category) (relation : String)
  | wrongCategory (element relation target : String) (found : Category) (expected : List Category)
  deriving DecidableEq, Repr

namespace RelationProblem

def message : RelationProblem → String
  | unknownTarget element relation target =>
    s!"Element '{element}' references unknown element '{target}' via '{relation}'"
  | invalidRelation element category relation =>
    s!"Relation '{relation}' is not valid on {category.name} element '{element}'"
  | wrongCategory element relation target found expected =>
    let names := " or ".intercalate (expected.map Category.name)
    s!"Relation '{relation}' on '{element}' points at {found.name} '{target}', expected {names}"

end RelationProblem

namespace Diagram

/-- The diagram without elements. -/
def empty : Diagram := ⟨[], by simp⟩

instance : Inhabited Diagram := ⟨empty⟩

/-- The first id that occurs in `ids` after having occurred before it or in `seen`. -/
def duplicate? (seen : List String) : List String → Option String
  | [] => none
  | id :: rest => if id ∈ seen then some id else duplicate? (id :: seen) rest

theorem duplicate?_eq_none_iff (seen ids : List String) :
    duplicate? seen ids = none ↔ ids.Nodup ∧ ∀ id ∈ ids, id ∉ seen := by
  induction ids generalizing seen with
  | nil => simp [duplicate?]
  | cons id rest ih =>
    simp only [duplicate?, List.nodup_cons, List.mem_cons, forall_eq_or_imp]
    split
    · simp_all
    · rename_i fresh
      rw [ih]
      simp only [List.mem_cons, not_or]
      constructor
      · rintro ⟨nodup, avoid⟩
        exact ⟨⟨fun mem => (avoid id mem).1 rfl, nodup⟩, fresh, fun other mem => (avoid other mem).2⟩
      · rintro ⟨⟨notMem, nodup⟩, _, avoid⟩
        exact ⟨nodup, fun other mem => ⟨fun same => notMem (same ▸ mem), avoid other mem⟩⟩

/-- The diagram of some elements, or the first id that an earlier element has already. -/
def ofElements (elements : List Element) : Except String Diagram :=
  match h : duplicate? [] (elements.map Element.id) with
  | some id => .error id
  | none => .ok ⟨elements, ((duplicate?_eq_none_iff [] _).1 h).1⟩

/-- The element of an id. -/
def find? (diagram : Diagram) (id : String) : Option Element :=
  diagram.elements.find? (·.id = id)

/-- The elements of a category, in order. -/
def ofCategory (diagram : Diagram) (category : Category) : List Element :=
  diagram.elements.filter (·.category = category)

def size (diagram : Diagram) : Nat := diagram.elements.length

def toJson (diagram : Diagram) : Json :=
  .object [("elements", .array (diagram.elements.map Element.toJson))]

/-! ## Relations -/

/-- The problem of one target of a relation, if any. -/
def targetProblem? (diagram : Diagram) (element : Element) (spec : RelationSpec) (target : String) :
    Option RelationProblem :=
  match diagram.find? target with
  | none => some (.unknownTarget element.id spec.name target)
  | some found =>
    if found.category ∈ spec.targets then none
    else some (.wrongCategory element.id spec.name target found.category spec.targets)

/-- The problems of one relation of an element. -/
def relationProblems (diagram : Diagram) (element : Element) (name : String) (relation : Relation) :
    List RelationProblem :=
  match element.category.relation? name with
  | none => [.invalidRelation element.id element.category name]
  | some spec => relation.targets.filterMap (targetProblem? diagram element spec)

/-- All problems of relations: elements in order, relations by name, targets in order. -/
def relationCheck (diagram : Diagram) : List RelationProblem :=
  diagram.elements.flatMap fun element =>
    element.attached.flatMap fun (name, relation) => relationProblems diagram element name relation

/-! ## Reading -/

/-- Reads elements into a diagram. -/
def finish (elements : Option (List Element)) : Except Fault Diagram :=
  match ofElements (elements.getD []) with
  | .ok diagram => .ok diagram
  | .error id => .error (.duplicateElement id)

def step (format : Format) (elements : Option (List Element)) (field : String) (value : Node) :
    Except Fault (Option (List Element)) :=
  match field with
  | "elements" => Node.once field elements (value.items (Element.ofNode format))
  | _ => do
    value.ignore
    return elements

/-- Reads a diagram: a record whose elements are optional and whose other fields are ignored. -/
def ofNode (format : Format) (node : Node) : Except Fault Diagram :=
  node.record format ["elements"] (step format) none finish

/-- Reads a diagram from a JSON text. -/
def ofText (text : String) : Except Fault Diagram := Json.readWith (ofNode .json) text

end Diagram
end ThreatModel
