import ThreatModel.Diagram
import ThreatModel.Proofs.Document.OpenRecord

/-!
# The parts of elements

Elements and their metadata as open records: the parts that each has a name for, the slots that hold them, and the
free fields beside them.
-/

namespace ThreatModel

/-! ## Metadata -/

namespace ElementMetadata

/-- The parts of metadata that have a name of their own. -/
inductive Part
  | category | shape | name

namespace Part

def key : Part → String
  | category => "element"
  | shape => "shape"
  | name => "name"

def Content : Part → Type
  | category => Category
  | shape => String
  | name => Option String

def read (format : Format) : (part : Part) → Node → Except Fault part.Content
  | category => Node.choice format Category.ofName?
  | shape => Node.text
  | name => Node.optional Node.text

end Part

def Slots.part (slots : Slots) : (part : Part) → Option part.Content
  | .category => slots.category
  | .shape => slots.shape
  | .name => slots.name

variable {format : Format} {slots next : Slots} {field : String} {value : Node}

theorem step_fills (stepped : step format slots field value = .ok next) (part : Part) :
    Node.Fills part.key (part.read format) field value (slots.part part) (next.part part) := by
  unfold step at stepped
  split at stepped
  case h_4 others category shape name =>
    obtain ⟨_, _, made⟩ := Except.bind_eq_ok.mp stepped
    cases made
    cases part <;> exact .of_ne (by assumption)
  all_goals
    obtain ⟨_, taken, made⟩ := Except.bind_eq_ok.mp stepped
    cases made
    cases part
    all_goals first
      | exact .of_once taken
      | exact .of_ne (by decide)

theorem exists_step {part : Part} {content : part.Content} (vacant : slots.part part = none)
    (read : part.read format value = .ok content) : ∃ next, step format slots part.key value = .ok next := by
  cases part
  all_goals
    exact ⟨_, Except.bind_eq_ok.mpr ⟨_, Node.once_eq_ok.mpr ⟨vacant, content, read, rfl⟩, rfl⟩⟩

theorem step_key {part : Part} (stepped : step format slots part.key value = .ok next) : next.extra = slots.extra := by
  cases part
  all_goals
    obtain ⟨_, _, made⟩ := Except.bind_eq_ok.mp stepped
    cases made
    rfl

theorem step_free (free : ∀ part : Part, field ≠ part.key) :
    step format slots field value = .ok next ↔ ∃ found, Json.ofNode (format.depth.map (· - 4)) value = .ok found ∧
      { slots with extra := Json.insertField field found slots.extra } = next := by
  unfold step
  split
  · exact absurd rfl (free .category)
  · exact absurd rfl (free .shape)
  · exact absurd rfl (free .name)
  · exact Except.bind_eq_ok.trans (by simp [pure, Except.pure])

def record (format : Format) : OpenRecord Part Slots where
  parts := [.category, .shape, .name]
  name := Part.key
  Content := Part.Content
  read := Part.read format
  depth := format.depth.map (· - 4)
  step := step format
  get := Slots.part
  free := Slots.extra
  start := {}
  mem_parts part := by cases part <;> simp
  fills _ _ _ _ := step_fills
  keeps _ _ _ _ := step_key
  gathers _ _ _ _ free stepped := by
    obtain ⟨found, read, rfl⟩ := (step_free free).mp stepped
    exact ⟨found, read, rfl⟩
  takes _ _ _ _ := exists_step
  takesFree _ _ _ found free read := ⟨_, (step_free free).mpr ⟨found, read, rfl⟩⟩
  vacant part := by cases part <;> rfl
  bare := rfl
  ext slots others same free := by
    obtain ⟨_, _, _, _⟩ := slots
    obtain ⟨_, _, _, _⟩ := others
    cases same .category
    cases same .shape
    cases same .name
    cases free
    rfl

end ElementMetadata
/-! ## Elements -/

namespace Element

/-- The parts of an element that have a name of their own. -/
inductive Part
  | id | metadata | attached

namespace Part

def key : Part → String
  | id => "id"
  | metadata => "metadata"
  | attached => "attached"

def Content : Part → Type
  | id => String
  | metadata => ElementMetadata
  | attached => List (String × Relation)

def read (format : Format) : (part : Part) → Node → Except Fault part.Content
  | id => Node.text
  | metadata => ElementMetadata.ofNode format
  | attached => attachedOf format

end Part

def Slots.part (slots : Slots) : (part : Part) → Option part.Content
  | .id => slots.id
  | .metadata => slots.metadata
  | .attached => slots.attached

variable {format : Format} {slots next : Slots} {field : String} {value : Node}

theorem step_fills (stepped : step format slots field value = .ok next) (part : Part) :
    Node.Fills part.key (part.read format) field value (slots.part part) (next.part part) := by
  unfold step at stepped
  split at stepped
  case h_4 others id metadata attached =>
    obtain ⟨_, _, made⟩ := Except.bind_eq_ok.mp stepped
    cases made
    cases part <;> exact .of_ne (by assumption)
  all_goals
    obtain ⟨_, taken, made⟩ := Except.bind_eq_ok.mp stepped
    cases made
    cases part
    all_goals first
      | exact .of_once taken
      | exact .of_ne (by decide)

theorem exists_step {part : Part} {content : part.Content} (vacant : slots.part part = none)
    (read : part.read format value = .ok content) : ∃ next, step format slots part.key value = .ok next := by
  cases part
  all_goals
    exact ⟨_, Except.bind_eq_ok.mpr ⟨_, Node.once_eq_ok.mpr ⟨vacant, content, read, rfl⟩, rfl⟩⟩

theorem step_key {part : Part} (stepped : step format slots part.key value = .ok next) :
    next.attributes = slots.attributes := by
  cases part
  all_goals
    obtain ⟨_, _, made⟩ := Except.bind_eq_ok.mp stepped
    cases made
    rfl

theorem step_free (free : ∀ part : Part, field ≠ part.key) :
    step format slots field value = .ok next ↔ ∃ found, Json.ofNode (format.depth.map (· - 3)) value = .ok found ∧
      { slots with attributes := Json.insertField field found slots.attributes } = next := by
  unfold step
  split
  · exact absurd rfl (free .id)
  · exact absurd rfl (free .metadata)
  · exact absurd rfl (free .attached)
  · exact Except.bind_eq_ok.trans (by simp [pure, Except.pure])

def record (format : Format) : OpenRecord Part Slots where
  parts := [.id, .metadata, .attached]
  name := Part.key
  Content := Part.Content
  read := Part.read format
  depth := format.depth.map (· - 3)
  step := step format
  get := Slots.part
  free := Slots.attributes
  start := {}
  mem_parts part := by cases part <;> simp
  fills _ _ _ _ := step_fills
  keeps _ _ _ _ := step_key
  gathers _ _ _ _ free stepped := by
    obtain ⟨found, read, rfl⟩ := (step_free free).mp stepped
    exact ⟨found, read, rfl⟩
  takes _ _ _ _ := exists_step
  takesFree _ _ _ found free read := ⟨_, (step_free free).mpr ⟨found, read, rfl⟩⟩
  vacant part := by cases part <;> rfl
  bare := rfl
  ext slots others same free := by
    obtain ⟨_, _, _, _⟩ := slots
    obtain ⟨_, _, _, _⟩ := others
    cases same .id
    cases same .metadata
    cases same .attached
    cases free
    rfl

end Element
end ThreatModel
