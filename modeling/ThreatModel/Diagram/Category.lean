/-!
# Categories of elements

Every element of a diagram belongs to one of five categories, which says what relations it may have
and what they may point at.
-/

namespace ThreatModel

inductive Category
  | zone | entity | datastore | process | dataflow
  deriving DecidableEq, Repr

/-- A relation that elements of a category may have. -/
structure RelationSpec where
  name : String
  /-- The categories that the relation may point at. -/
  targets : List Category
  /-- Whether it points at any number of elements. -/
  many : Bool
  deriving DecidableEq, Repr

namespace Category

/-- All categories, in the order in which they are listed. -/
def all : List Category := [zone, entity, datastore, process, dataflow]

def name : Category → String
  | zone => "zone"
  | entity => "entity"
  | datastore => "datastore"
  | process => "process"
  | dataflow => "dataflow"

/-- The category of a name, which is spelt exactly. -/
def ofName? (name : String) : Option Category := all.find? (·.name = name)

/-- What is said of a name that no category has. -/
def unknownMessage (name : String) : String := s!"unknown element category: '{name}'"

/-- The relations that an element of the category may have. -/
def relations : Category → List RelationSpec
  | zone =>
    [⟨"parent", [zone], false⟩, ⟨"children", [zone], true⟩, ⟨"entities", [entity], true⟩,
      ⟨"datastores", [datastore], true⟩]
  | entity | datastore => [⟨"zone", [zone], false⟩, ⟨"dataflows", [dataflow], true⟩]
  | dataflow =>
    [⟨"process", [process], false⟩, ⟨"source", [entity, datastore], false⟩,
      ⟨"destination", [entity, datastore], false⟩]
  | process => [⟨"dataflow", [dataflow], false⟩]

/-- The relation of a name that an element of the category may have. -/
def relation? (category : Category) (name : String) : Option RelationSpec :=
  category.relations.find? (·.name = name)

theorem mem_all (category : Category) : category ∈ all := by cases category <;> decide

theorem ofName?_name (category : Category) : ofName? category.name = some category := by
  cases category <;> decide

theorem eq_name (name : String) (category : Category) (found : ofName? name = some category) :
    name = category.name := by
  rw [ofName?] at found
  have same := List.find?_some found
  exact (of_decide_eq_true same).symm

end Category
end ThreatModel
