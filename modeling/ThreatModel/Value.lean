import ThreatModel.Diagram
import ThreatModel.Expression.Operand

/-!
# Values of operands

A path may lead to nothing, to JSON data, to an element, to the relations of an element, or to many of
these at once. Arrays of data become lists, and a list never has a list inside it: see `Normal`.
-/

namespace ThreatModel

inductive Value
  /-- What a path finds that leads nowhere. -/
  | undefined
  | json (data : Json)
  /-- An element, by id. -/
  | element (id : String)
  /-- The relations of an element, by id. -/
  | relations (id : String)
  | list (items : List Value)

/-- An element under evaluation, in its diagram. -/
structure Context where
  diagram : Diagram
  element : Element

namespace Value

instance : Inhabited Value := ⟨undefined⟩

mutual
/-- The data of an array without the arrays around it; other data stands for itself. -/
def leaves : Json → List Json
  | .array items => leavesOf items
  | data => [data]

def leavesOf : List Json → List Json
  | [] => []
  | item :: rest => leaves item ++ leavesOf rest
end

/-- The value of data: an array is the list of its leaves. -/
def ofJson : Json → Value
  | .array items => list ((leavesOf items).map json)
  | data => json data

/-- The value of a literal; an infinite number has none. -/
def ofLiteral : Literal → Value
  | .text content => json (.text content)
  | .truth value => json (.truth value)
  | .number value => if value.isFinite then json (.double value) else undefined

def isUndefined : Value → Bool
  | undefined => true
  | _ => false

/-- The values that a value contributes to a list: nothing if it is undefined, its items if it is a
list. -/
def contribution : Value → List Value
  | undefined => []
  | list items => items
  | value => [value]

/-! ## Paths -/

/-- The value of what a relation points at. -/
def ofRelation : Relation → Value
  | .one target => element target
  | .many targets => list (targets.map element)

/-- What an element has under a name: its id, its metadata, its relations or a free attribute. -/
def ofField (e : Element) (segment : String) : Value :=
  if segment = "id" then json (.text e.id)
  else if segment = "metadata" then ofJson e.metadata.toJson
  else if segment = "attached" then relations e.id
  else match e.attribute? segment with
    | some data => ofJson data
    | none => undefined

mutual
/-- Follows one segment of a path. A list is followed item by item, and items that lead nowhere are
dropped. -/
def step (diagram : Diagram) (segment : String) : Value → Value
  | undefined => undefined
  | json (.object fields) => match Json.field? segment fields with
    | some data => ofJson data
    | none => undefined
  | json _ => undefined
  | element id => match diagram.find? id with
    | some found => ofField found segment
    | none => undefined
  | relations id => match (diagram.find? id).bind (·.relation? segment) with
    | some relation => ofRelation relation
    | none => undefined
  | list items => list (stepItems diagram segment items)

def stepItems (diagram : Diagram) (segment : String) : List Value → List Value
  | [] => []
  | item :: rest => (step diagram segment item).contribution ++ stepItems diagram segment rest
end

/-- Follows a path from a value. -/
def walk (diagram : Diagram) (value : Value) (segments : List String) : Value :=
  segments.foldl (fun value segment => step diagram segment value) value

/-- Follows a path from the element under evaluation, which the empty path leads to. -/
def ofPath (context : Context) : List String → Value
  | [] => element context.element.id
  | first :: rest => walk context.diagram (ofField context.element first) rest

/-! ## Normal values -/

/-- Data that is not an array. -/
def isLeafData : Json → Bool
  | .array _ => false
  | _ => true

/-- A value that may stand in a list: one that is defined and neither a list nor an array. -/
def isItem : Value → Bool
  | json data => isLeafData data
  | element _ | relations _ => true
  | undefined | list _ => false

/-- A value that holds no list inside a list and no array of data. -/
def Normal : Value → Prop
  | list items => ∀ item ∈ items, item.isItem = true
  | json data => isLeafData data = true
  | _ => True

end Value
end ThreatModel
