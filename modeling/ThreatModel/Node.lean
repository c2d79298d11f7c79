import ThreatModel.Fault
import ThreatModel.Number.Double

/-!
# Documents as their text gives them

A node is a part of a document before it is known what the part should be. Tables keep their entries
in the order of the text, with repeated keys, so that the first fault of a document is found first.
A text that breaks off leaves a node for what was read, with a `cut` where the reading stopped.
-/

namespace ThreatModel

/-- A scalar as data of no particular type. -/
inductive Datum
  | null
  | truth (value : Bool)
  | int (value : Int)
  | double (value : Double)
  /-- What is not a number. -/
  | nan
  | text (content : String)
  deriving DecidableEq

/-- The readings of a scalar, of which the field that holds it chooses one. -/
structure Scalar where
  /-- The reading as a text, if a text may be written so. -/
  text : Option String
  /-- The reading as a truth value. -/
  truth : Option Bool
  /-- Whether an optional field takes the scalar for an absent value. -/
  isNull : Except Fault Bool
  /-- Whether nothing was written, which also reads as an empty list or table. -/
  vacant : Bool
  /-- The reading as data of no particular type. -/
  data : Except Fault Datum

inductive Node
  | scalar (value : Scalar)
  | list (items : List Node)
  | table (entries : List (Node × Node))
  /-- A node under a tag of the document's own, which data of no particular type cannot have. -/
  | tagged (tag : String) (node : Node)
  /-- A value whose text is sound but denotes nothing that can be held. -/
  | unreadable
  /-- Where the reading of the text stopped. -/
  | cut

/-- How the documents of a format stand for records. -/
structure Format where
  /-- Whether a list of values stands for a record, its fields being in order. -/
  positional : Bool
  /-- Whether a table of one entry, whose value is null, stands for the choice that its key names. -/
  keyedChoice : Bool
  /-- The fault of a value that stands for no choice at all. -/
  noChoice : Fault
  /-- How many containers may stand inside one another. -/
  depth : Option Nat

namespace Format

/-- A value that is held already. -/
def held : Format := ⟨true, true, .wrongType, none⟩

/-- A JSON text. -/
def json : Format := ⟨true, true, .other, some 127⟩

/-- A YAML text. -/
def yaml : Format := ⟨false, false, .wrongType, some 128⟩

end Format

namespace Scalar

/-- A text that can be nothing else. -/
def ofText (content : String) : Scalar :=
  ⟨some content, none, .ok false, false, .ok (.text content)⟩

/-- A datum that is no text. -/
def ofDatum (datum : Datum) : Scalar :=
  match datum with
  | .null => ⟨none, none, .ok true, false, .ok .null⟩
  | .truth value => ⟨none, some value, .ok false, false, .ok (.truth value)⟩
  | .text content => ofText content
  | datum => ⟨none, none, .ok false, false, .ok datum⟩

/-- Nothing at all, where a value should be. -/
def vacancy (text : Option String) : Scalar := ⟨text, none, .ok true, true, .ok .null⟩

end Scalar

namespace Node

/-- The node below its tags. -/
def untagged : Node → Node
  | tagged _ node => node.untagged
  | node => node

/-- Whether reading stopped somewhere in a node. -/
def isCut : Node → Bool
  | list items => listCut items
  | table entries => tableCut entries
  | tagged _ node => node.isCut
  | cut => true
  | _ => false
where
  listCut : List Node → Bool
    | [] => false
    | item :: rest => item.isCut || listCut rest
  tableCut : List (Node × Node) → Bool
    | [] => false
    | (key, value) :: rest => key.isCut || value.isCut || tableCut rest

end Node
end ThreatModel
