import ThreatModel.Json
import ThreatModel.Number.Shortest
import ThreatModel.Yaml.Schema

/-!
# Free data of YAML texts

What a document holds that is of no particular type yet. Keys may be any data, and no key may occur twice in
a table. Written out again, a scalar has a text of its own: numbers are decimal and words are in small
letters.
-/

namespace ThreatModel.Yaml

inductive Data
  | scalar (datum : Datum)
  | list (items : List Data)
  | table (entries : List (Data × Data))

namespace Data

mutual
/-- Reads data, at most `depth` containers deep. -/
def ofNode (depth : Option Nat) : Node → Except Fault Data
  | .scalar value => value.data.map scalar
  | .list nodes => do
    let depth ← Json.deeper depth
    return list (← ofNodes depth nodes)
  | .table entries => do
    let depth ← Json.deeper depth
    return table (← ofEntries depth entries)
  | .tagged _ _ | .unreadable | .cut => .error .other

def ofNodes (depth : Option Nat) : List Node → Except Fault (List Data)
  | [] => .ok []
  | node :: rest => do
    let item ← ofNode depth node
    return item :: (← ofNodes depth rest)

def ofEntries (depth : Option Nat) : List (Node × Node) → Except Fault (List (Data × Data))
  | [] => .ok []
  | (key, value) :: rest => do
    let key ← ofNode depth key
    let value ← ofNode depth value
    return (key, value) :: (← ofEntries depth rest)
end

/-! ## Keys -/

/-- Whether two scalars are the same key. -/
def sameDatum : Datum → Datum → Bool
  | .double left, .double right => left.eqv right
  | left, right => left = right

mutual
/-- Whether two data are the same key; the order of entries does not matter. -/
def same : Data → Data → Bool
  | scalar left, scalar right => sameDatum left right
  | list left, list right => sameItems left right
  | table left, table right => left.length = right.length && sameEntries left right
  | _, _ => false

def sameItems : List Data → List Data → Bool
  | [], [] => true
  | left :: lefts, right :: rights => same left right && sameItems lefts rights
  | _, _ => false

def sameEntries : List (Data × Data) → List (Data × Data) → Bool
  | [], _ => true
  | (key, value) :: rest, others =>
    others.any (fun other => same key other.1 && same value other.2) && sameEntries rest others
end

mutual
/-- Whether no table in the data has a key twice. -/
def isDistinct : Data → Bool
  | scalar _ => true
  | list items => areDistinct items
  | table entries => entriesDistinct [] entries

def areDistinct : List Data → Bool
  | [] => true
  | item :: rest => isDistinct item && areDistinct rest

/-- The keys in `seen` stand before the entries. -/
def entriesDistinct (seen : List Data) : List (Data × Data) → Bool
  | [] => true
  | (key, value) :: rest =>
    isDistinct key && isDistinct value && !seen.any (same key) && entriesDistinct (key :: seen) rest
end

/-! ## Writing out -/

/-- The node of a datum that is written out. -/
def datumNode : Datum → Node
  | .null => Schema.scalar none .plain "null"
  | .truth value => Schema.scalar none .plain (if value then "true" else "false")
  | .int value => Schema.scalar none .plain (toString value)
  | .double value => Schema.scalar none .plain (String.ofList (Shortest.text Shortest.data value))
  | .nan => Schema.scalar none .plain ".nan"
  | .text content => Schema.scalar none .singleQuoted content

mutual
/-- The node of data that are written out. -/
def toNode : Data → Node
  | scalar datum => datumNode datum
  | list items => .list (toNodes items)
  | table entries => .table (toEntries entries)

def toNodes : List Data → List Node
  | [] => []
  | item :: rest => toNode item :: toNodes rest

def toEntries : List (Data × Data) → List (Node × Node)
  | [] => []
  | (key, value) :: rest => (toNode key, toNode value) :: toEntries rest
end

end Data
end ThreatModel.Yaml
