import ThreatModel.Proofs.Identity
import ThreatModel.Value

/-!
# Ids that paths come to

A value names elements by their ids, alone or in a list. Main statements: paths do not lead out of a set of
ids that is closed under the relations of its elements, and two diagrams that have the same elements for these
ids have the same values at the end of each path.
-/

namespace ThreatModel

namespace Element

/-- The ids that the relations of an element point at. -/
def references (e : Element) : List String := e.attached.flatMap fun (_, relation) => relation.targets

theorem mem_attached {e : Element} {name : String} {relation : Relation}
    (found : e.relation? name = some relation) : (name, relation) ∈ e.attached := by
  obtain ⟨⟨key, relation'⟩, first, rfl⟩ := Option.map_eq_some_iff.mp found
  have same : key = name := by simpa using List.find?_some first
  exact same ▸ List.mem_of_find?_eq_some first

theorem mem_references {e : Element} {name : String} {relation : Relation}
    (found : e.relation? name = some relation) {target : String} (member : target ∈ relation.targets) :
    target ∈ e.references :=
  List.mem_flatMap.mpr ⟨(name, relation), mem_attached found, member⟩

end Element

namespace Diagram

/-- Known elements refer to known ones only. -/
def Closed (diagram : Diagram) (known : String → Prop) : Prop :=
  ∀ e ∈ diagram.elements, known e.id → ∀ target ∈ e.references, known target

/-- Two diagrams have the same elements for known ids. -/
def AgreesOn (diagram : Diagram) (known : String → Prop) (other : Diagram) : Prop :=
  ∀ id, known id → diagram.find? id = other.find? id

end Diagram

namespace Value

/-- A value is another, or stands in a list that the other is. -/
inductive Occurs (item : Value) : Value → Prop
  | here : Occurs item item
  | inside {items : List Value} {value : Value} (member : value ∈ items) (occurs : Occurs item value) :
      Occurs item (list items)

/-- The elements that a value names, itself or by their relations, are known. -/
def Within (known : String → Prop) (value : Value) : Prop :=
  ∀ id, (element id).Occurs value ∨ (relations id).Occurs value → known id

variable {known : String → Prop}

@[simp] theorem within_undefined : undefined.Within known := by
  rintro id (occurs | occurs)
  · cases occurs
  · cases occurs

@[simp] theorem within_json (data : Json) : (json data).Within known := by
  rintro id (occurs | occurs)
  · cases occurs
  · cases occurs

@[simp] theorem within_element {id : String} : (element id).Within known ↔ known id := by
  constructor
  · intro within
    exact within id (.inl .here)
  · rintro inside _ (occurs | occurs)
    · cases occurs
      exact inside
    · cases occurs

@[simp] theorem within_relations {id : String} : (relations id).Within known ↔ known id := by
  constructor
  · intro within
    exact within id (.inr .here)
  · rintro inside _ (occurs | occurs)
    · cases occurs
    · cases occurs
      exact inside

@[simp] theorem within_list {items : List Value} :
    (list items).Within known ↔ ∀ item ∈ items, item.Within known := by
  constructor
  · rintro within item member id (occurs | occurs)
    · exact within id (.inl (.inside member occurs))
    · exact within id (.inr (.inside member occurs))
  · rintro each id (occurs | occurs)
    · cases occurs with
      | inside member occurs => exact each _ member id (.inl occurs)
    · cases occurs with
      | inside member occurs => exact each _ member id (.inr occurs)

theorem Within.contribution {value : Value} (within : value.Within known) :
    ∀ item ∈ value.contribution, item.Within known := by
  cases value with
  | undefined => exact List.forall_mem_nil _
  | list items => exact within_list.mp within
  | json data => exact List.forall_mem_singleton.mpr within
  | element id => exact List.forall_mem_singleton.mpr within
  | relations id => exact List.forall_mem_singleton.mpr within

/-! ## Where values come from -/

/-- Data names no elements. -/
theorem within_ofJson (data : Json) : (ofJson data).Within known := by
  cases data with
  | array items =>
    rw [ofJson, within_list]
    intro item member
    obtain ⟨leaf, -, rfl⟩ := List.mem_map.mp member
    exact within_json leaf
  | _ => exact within_json _

theorem within_ofLiteral (literal : Literal) : (ofLiteral literal).Within known := by
  cases literal with
  | text content => exact within_json _
  | truth value => exact within_json _
  | number value =>
    rw [ofLiteral]
    split
    · exact within_json _
    · exact within_undefined

theorem within_ofRelation {relation : Relation} :
    (ofRelation relation).Within known ↔ ∀ target ∈ relation.targets, known target := by
  cases relation with
  | one target => simp [ofRelation, Relation.targets]
  | many targets => simp [ofRelation, Relation.targets]

/-- An element names no other element under a name of its own. -/
theorem within_ofField {e : Element} (inside : known e.id) (segment : String) :
    (ofField e segment).Within known := by
  unfold ofField
  split
  · exact within_json _
  split
  · exact within_ofJson _
  split
  · exact within_relations.mpr inside
  split
  · exact within_ofJson _
  · exact within_undefined

/-! ## Steps and paths -/

variable {diagram : Diagram}

mutual
theorem within_step (closed : diagram.Closed known) (segment : String) {value : Value}
    (within : value.Within known) : (step diagram segment value).Within known := by
  cases value with
  | undefined => rw [step]; exact within_undefined
  | json data =>
    cases data with
    | object fields =>
      rw [step]
      split
      · exact within_ofJson _
      · exact within_undefined
    | _ => simp [step]
  | element id =>
    rw [step]
    split
    · rename_i found present
      obtain ⟨-, rfl⟩ := Diagram.find?_eq_some.mp present
      exact within_ofField (within_element.mp within) segment
    · exact within_undefined
  | relations id =>
    rw [step]
    split
    · rename_i relation present
      obtain ⟨owner, found, has⟩ := Option.bind_eq_some_iff.mp present
      obtain ⟨member, rfl⟩ := Diagram.find?_eq_some.mp found
      have inside := closed owner member (within_relations.mp within)
      exact within_ofRelation.mpr fun target points => inside target (Element.mem_references has points)
    · exact within_undefined
  | list items =>
    rw [step]
    exact within_list.mpr (within_stepItems closed segment (within_list.mp within))

theorem within_stepItems (closed : diagram.Closed known) (segment : String) {items : List Value}
    (within : ∀ item ∈ items, item.Within known) :
    ∀ item ∈ stepItems diagram segment items, item.Within known := by
  cases items with
  | nil => simp [stepItems]
  | cons item rest =>
    obtain ⟨first, others⟩ := List.forall_mem_cons.mp within
    rw [stepItems]
    exact List.forall_mem_append.mpr
      ⟨(within_step closed segment first).contribution, within_stepItems closed segment others⟩
end

theorem within_walk (closed : diagram.Closed known) {value : Value} (within : value.Within known) (segments : List String) :
    (walk diagram value segments).Within known := by
  induction segments generalizing value with
  | nil => exact within
  | cons segment rest ih => exact ih (within_step closed segment within)

theorem within_ofPath (closed : diagram.Closed known) {e : Element} (inside : known e.id)
    (path : List String) : (ofPath ⟨diagram, e⟩ path).Within known := by
  cases path with
  | nil => exact within_element.mpr inside
  | cons first rest => exact within_walk closed (within_ofField inside first) rest

/-! ## Diagrams that agree -/

variable {other : Diagram}

mutual
theorem step_agree (agree : diagram.AgreesOn known other) (segment : String) {value : Value}
    (within : value.Within known) : step diagram segment value = step other segment value := by
  cases value with
  | undefined => rw [step, step]
  | json data => cases data <;> simp only [step]
  | element id => rw [step, step, agree id (within_element.mp within)]
  | relations id => rw [step, step, agree id (within_relations.mp within)]
  | list items => rw [step, step, stepItems_agree agree segment (within_list.mp within)]

theorem stepItems_agree (agree : diagram.AgreesOn known other) (segment : String) {items : List Value}
    (within : ∀ item ∈ items, item.Within known) :
    stepItems diagram segment items = stepItems other segment items := by
  cases items with
  | nil => rw [stepItems, stepItems]
  | cons item rest =>
    obtain ⟨first, others⟩ := List.forall_mem_cons.mp within
    rw [stepItems, stepItems, step_agree agree segment first, stepItems_agree agree segment others]
end

variable (closed : diagram.Closed known) (agree : diagram.AgreesOn known other)

include closed agree

theorem walk_agree {value : Value} (within : value.Within known) (segments : List String) :
    walk diagram value segments = walk other value segments := by
  induction segments generalizing value with
  | nil => rfl
  | cons segment rest ih =>
    have next := ih (within_step closed segment within)
    rw [walk, List.foldl_cons, walk, List.foldl_cons, ← step_agree agree segment within]
    exact next

theorem ofPath_agree {e : Element} (inside : known e.id) (path : List String) :
    ofPath ⟨diagram, e⟩ path = ofPath ⟨other, e⟩ path := by
  cases path with
  | nil => rfl
  | cons first rest => exact walk_agree closed agree (within_ofField inside first) rest

end Value
end ThreatModel
