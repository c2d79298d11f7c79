import ThreatModel.Reading
import ThreatModel.Json

/-!
# Conditions

The condition of a rule is a tree: lists that want all or any of their conditions to hold, comparisons
at the leaves, and bindings, which stand in lists and name values for the conditions beside and below
them. In a document a condition is a table with exactly one of four keys.
-/

namespace ThreatModel

/-- How a list combines its conditions. -/
inductive Combinator
  /-- Every condition must hold. -/
  | all
  /-- At least one condition must hold. -/
  | any
  deriving DecidableEq, Repr

/-- The key under which a list stands. -/
def Combinator.key : Combinator → String
  | .all => "designs"
  | .any => "either"

inductive Condition
  | list (combinator : Combinator) (children : List Condition)
  | design (expression : String)
  | binding (expression : String)

namespace Condition

def isBinding : Condition → Bool
  | binding _ => true
  | _ => false

mutual
/-- How many lists stand inside one another. -/
def depth : Condition → Nat
  | list _ children => depthOf children + 1
  | _ => 0

/-- The greatest depth of some conditions. -/
def depthOf : List Condition → Nat
  | [] => 0
  | child :: rest => max (depth child) (depthOf rest)
end

mutual
def beq : Condition → Condition → Bool
  | list left lefts, list right rights => left = right && beqAll lefts rights
  | design left, design right => left = right
  | binding left, binding right => left = right
  | _, _ => false

def beqAll : List Condition → List Condition → Bool
  | [], [] => true
  | left :: lefts, right :: rights => beq left right && beqAll lefts rights
  | _, _ => false
end

instance : BEq Condition := ⟨beq⟩

mutual
theorem eq_of_beq {left right : Condition} (h : beq left right = true) : left = right := by
  cases left with
  | list c lefts =>
    cases right with
    | list d rights =>
      simp only [beq, Bool.and_eq_true, decide_eq_true_eq] at h
      rw [h.1, eq_of_beqAll h.2]
    | design => simp [beq] at h
    | binding => simp [beq] at h
  | design e => cases right <;> simp_all [beq]
  | binding e => cases right <;> simp_all [beq]

theorem eq_of_beqAll {lefts rights : List Condition} (h : beqAll lefts rights = true) :
    lefts = rights := by
  cases lefts with
  | nil => cases rights <;> simp_all [beqAll]
  | cons left lefts =>
    cases rights with
    | nil => simp [beqAll] at h
    | cons right rights =>
      simp only [beqAll, Bool.and_eq_true] at h
      rw [eq_of_beq h.1, eq_of_beqAll h.2]
end

mutual
theorem beq_refl (condition : Condition) : beq condition condition = true := by
  cases condition with
  | list c children => simp [beq, beqAll_refl children]
  | design => simp [beq]
  | binding => simp [beq]

theorem beqAll_refl (conditions : List Condition) : beqAll conditions conditions = true := by
  cases conditions with
  | nil => simp [beqAll]
  | cons child rest => simp [beqAll, beq_refl child, beqAll_refl rest]
end

instance : LawfulBEq Condition where
  eq_of_beq := eq_of_beq
  rfl := beq_refl _

instance : DecidableEq Condition := fun left right =>
  decidable_of_iff (left == right) beq_iff_eq

/-! ## Writing -/

mutual
/-- A condition as a value of a document. -/
def toJson : Condition → Json
  | list combinator children => .object [(combinator.key, .array (toJsons children))]
  | design expression => .object [("design", .text expression)]
  | binding expression => .object [("variable", .text expression)]

def toJsons : List Condition → List Json
  | [] => []
  | child :: rest => toJson child :: toJsons rest
end

/-! ## Reading -/

/-- The forms of a condition as far as they were read; the outer option says whether the key was there,
the inner one whether its value was more than null. -/
structure Slots where
  designs : Option (Option (List Condition)) := none
  either : Option (Option (List Condition)) := none
  design : Option (Option String) := none
  binding : Option (Option String) := none

/-- The conditions that slots hold, in the order in which forms are named. -/
def Slots.found (slots : Slots) : List (Form × Condition) :=
  (slots.designs.join.map fun children => (Form.designs, list .all children)).toList ++
  (slots.either.join.map fun children => (Form.either, list .any children)).toList ++
  (slots.design.join.map fun expression => (Form.design, .design expression)).toList ++
  (slots.binding.join.map fun expression => (Form.variableBinding, .binding expression)).toList

/-- The one condition that slots hold. -/
def Slots.finish (slots : Slots) : Except Fault Condition :=
  match slots.found with
  | [] => .error .formlessNode
  | [(_, condition)] => .ok condition
  | found => .error (.manyForms (found.map (·.1)))

/-- The keys of a condition, in the order of a record. -/
def keys : List String := ["designs", "either", "design", "variable"]

/-- Takes the value of a key into its slot; `children` is the value read as a list of conditions. -/
def Slots.take (slots : Slots) (name : String) (value : Node)
    (children : Except Fault (Option (List Condition))) : Except Fault Slots :=
  match name with
  | "designs" => do return { slots with designs := ← Node.once name slots.designs children }
  | "either" => do return { slots with either := ← Node.once name slots.either children }
  | "design" => do
    return { slots with design := ← Node.once name slots.design (value.optional Node.text) }
  | "variable" => do
    return { slots with binding := ← Node.once name slots.binding (value.optional Node.text) }
  | _ => .error (.unknownField name)

/-- The children that a scalar stands for: none for null, and no children for nothing at all. -/
def childrenOfScalar (value : Scalar) (nullable : Bool) : Except Fault (Option (List Condition)) := do
  if nullable && (← value.isNull) then return none
  if value.vacant then return some []
  .error .wrongType

mutual
/-- Reads a condition, at most `depth` containers deep. -/
def read (format : Format) (depth : Option Nat) : Node → Except Fault Condition
  | .table entries => do
    let depth ← Json.deeper depth
    (← readEntries format depth {} entries).finish
  | .list nodes =>
    if format.positional then do
      let depth ← Json.deeper depth
      let condition ← (← readFields format depth {} keys nodes).finish
      if keys.length < nodes.length then .error .other else return condition
    else .error .wrongType
  | .scalar value => if value.vacant then Slots.finish {} else .error .wrongType
  | .tagged _ node => read format depth node
  | .unreadable | .cut => .error .other

/-- Reads the entries of a table into slots. -/
def readEntries (format : Format) (depth : Option Nat) (slots : Slots) :
    List (Node × Node) → Except Fault Slots
  | [] => .ok slots
  | (key, value) :: rest => do
    let slots ← slots.take (← key.text) value (readChildren format depth true value)
    readEntries format depth slots rest

/-- Reads values in the order of the fields. -/
def readFields (format : Format) (depth : Option Nat) (slots : Slots) :
    List String → List Node → Except Fault Slots
  | name :: names, value :: rest => do
    let slots ← slots.take name value (readChildren format depth true value)
    readFields format depth slots names rest
  | _, _ => .ok slots

/-- Reads the conditions of a list, which is absent if it is null and has no tag. -/
def readChildren (format : Format) (depth : Option Nat) (nullable : Bool) :
    Node → Except Fault (Option (List Condition))
  | .scalar value => childrenOfScalar value nullable
  | .list nodes => do
    let depth ← Json.deeper depth
    return some (← readAll format depth nodes)
  | .tagged _ node => readChildren format depth false node
  | .table _ => .error .wrongType
  | .unreadable | .cut => .error .other

/-- Reads conditions one after the other. -/
def readAll (format : Format) (depth : Option Nat) : List Node → Except Fault (List Condition)
  | [] => .ok []
  | node :: rest => do
    let child ← read format depth node
    return child :: (← readAll format depth rest)
end

end Condition
end ThreatModel
