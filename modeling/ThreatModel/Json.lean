import ThreatModel.Reading

/-!
# JSON values

Integers are kept apart from numbers with a fraction or an exponent. An object that is read has its
fields in the order of their names, and each name once; an object that is only written keeps the order
it is built in.
-/

namespace ThreatModel

inductive Json
  | null
  | truth (value : Bool)
  | int (value : Int)
  | double (value : Double)
  | text (content : String)
  | array (items : List Json)
  | object (fields : List (String × Json))

namespace Json

instance : Inhabited Json := ⟨null⟩

/-! ## Fields -/

/-- The value of the first field of a name. -/
def field? (name : String) : List (String × Json) → Option Json
  | [] => none
  | (key, value) :: rest => if key = name then some value else field? name rest

/-- Sets a field, keeping the order of names. -/
def insertField (name : String) (value : Json) : List (String × Json) → List (String × Json)
  | [] => [(name, value)]
  | (key, old) :: rest =>
    if name < key then (name, value) :: (key, old) :: rest
    else if name = key then (name, value) :: rest
    else (key, old) :: insertField name value rest

/-- The fields in the order of their names; of several values of a name the last stays. -/
def sortFields (fields : List (String × Json)) : List (String × Json) :=
  fields.foldl (fun sorted (name, value) => insertField name value sorted) []

/-- The object with some fields. -/
def ofFields (fields : List (String × Json)) : Json := object (sortFields fields)

/-! ## Equality -/

mutual
/-- Whether two values are the same. An integer is never the same as another kind of number, and the
two zeros of the latter are the same. -/
def same : Json → Json → Bool
  | null, null => true
  | truth left, truth right => left = right
  | int left, int right => left = right
  | double left, double right => left.eqv right
  | text left, text right => left = right
  | array left, array right => sameItems left right
  | object left, object right => sameFields left right
  | _, _ => false

def sameItems : List Json → List Json → Bool
  | [], [] => true
  | left :: lefts, right :: rights => same left right && sameItems lefts rights
  | _, _ => false

def sameFields : List (String × Json) → List (String × Json) → Bool
  | [], [] => true
  | (name, left) :: lefts, (name', right) :: rights =>
    name = name' && same left right && sameFields lefts rights
  | _, _ => false
end

instance : BEq Json := ⟨same⟩

/-! ## Values as documents -/

mutual
/-- The document that a value stands for. -/
def toNode : Json → Node
  | null => .scalar (.ofDatum .null)
  | truth value => .scalar (.ofDatum (.truth value))
  | int value => .scalar (.ofDatum (.int value))
  | double value => .scalar (.ofDatum (.double value))
  | text content => .scalar (.ofText content)
  | array items => .list (itemNodes items)
  | object fields => .table (fieldNodes fields)

def itemNodes : List Json → List Node
  | [] => []
  | item :: rest => toNode item :: itemNodes rest

def fieldNodes : List (String × Json) → List (Node × Node)
  | [] => []
  | (name, value) :: rest => (.scalar (.ofText name), toNode value) :: fieldNodes rest
end

/-- The value of a scalar that is free data. -/
def ofDatum : Datum → Json
  | .null => null
  | .truth value => truth value
  | .int value => int value
  | .double value => double value
  | .nan => null
  | .text content => text content

/-- What is left of the depth inside one more container. -/
def deeper : Option Nat → Except Fault (Option Nat)
  | none => .ok none
  | some 0 => .error .other
  | some (left + 1) => .ok (some left)

mutual
/-- Reads free data, at most `depth` containers deep. -/
def ofNode (depth : Option Nat) : Node → Except Fault Json
  | .scalar value => value.data.map ofDatum
  | .list nodes => do
    let depth ← deeper depth
    return array (← ofNodes depth nodes)
  | .table entries => do
    let depth ← deeper depth
    return ofFields (← ofEntries depth entries)
  | .tagged _ _ | .unreadable | .cut => .error .other

def ofNodes (depth : Option Nat) : List Node → Except Fault (List Json)
  | [] => .ok []
  | node :: rest => do
    let item ← ofNode depth node
    return item :: (← ofNodes depth rest)

def ofEntries (depth : Option Nat) : List (Node × Node) → Except Fault (List (String × Json))
  | [] => .ok []
  | (key, value) :: rest => do
    let name ← key.text
    let value ← ofNode depth value
    return (name, value) :: (← ofEntries depth rest)
end

end Json
end ThreatModel
