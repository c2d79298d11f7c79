import ThreatModel.Proofs.Path.Closure

/-!
# Paths through checked relations

A diagram without problems has, for each relation of an element, elements of the categories that the relation
may point at. Main statement: in such a diagram all that paths come to are elements of the diagram, and a path
ends at elements of a category at which its last segment may point.
-/

namespace ThreatModel

/-! ## Relations of a name -/

namespace Category

/-- Some categories have relations of a name, and each of them lets these point at a category. -/
def Admits (name : String) (target : Category) : Prop :=
  (∃ owner : Category, (owner.relation? name).isSome) ∧
    ∀ (owner : Category) (spec : RelationSpec), owner.relation? name = some spec → target ∈ spec.targets

theorem mem_relations {category : Category} {name : String} {spec : RelationSpec}
    (has : category.relation? name = some spec) : spec ∈ category.relations ∧ spec.name = name :=
  ⟨List.mem_of_find?_eq_some has, by simpa using List.find?_some has⟩

/-- Relations of one name may point at the same categories, whatever category has them. -/
theorem targets_unique {owner other : Category} {name : String} {spec spec' : RelationSpec}
    (has : owner.relation? name = some spec) (has' : other.relation? name = some spec') :
    spec.targets = spec'.targets := by
  have table : ∀ left ∈ owner.relations, ∀ right ∈ other.relations, left.name = right.name →
      left.targets = right.targets := by
    cases owner <;> cases other <;> decide
  obtain ⟨member, named⟩ := mem_relations has
  obtain ⟨member', named'⟩ := mem_relations has'
  exact table spec member spec' member' (named.trans named'.symm)

theorem admits_of_mem {owner target : Category} {name : String} {spec : RelationSpec}
    (has : owner.relation? name = some spec) (member : target ∈ spec.targets) : Admits name target := by
  refine ⟨⟨owner, by simp [has]⟩, fun other spec' has' => ?_⟩
  rwa [← targets_unique has has']

end Category

/-! ## The check of relations -/

namespace Diagram

variable {diagram : Diagram}

/-- An id is that of an element. -/
def Has (diagram : Diagram) (id : String) : Prop := ∃ e ∈ diagram.elements, e.id = id

/-- An id is that of an element at which relations of a name may point. -/
def HasFor (diagram : Diagram) (name id : String) : Prop :=
  ∃ e ∈ diagram.elements, e.id = id ∧ Category.Admits name e.category

theorem targetProblem?_eq_none {e : Element} {spec : RelationSpec} {target : String} :
    diagram.targetProblem? e spec target = none ↔
      ∃ found ∈ diagram.elements, found.id = target ∧ found.category ∈ spec.targets := by
  unfold targetProblem?
  cases known : diagram.find? target with
  | none =>
    refine iff_of_false (Option.some_ne_none _) ?_
    rintro ⟨found, member, same, -⟩
    rw [find?_eq_some.mpr ⟨member, same⟩] at known
    cases known
  | some found =>
    obtain ⟨member, same⟩ := find?_eq_some.mp known
    constructor
    · intro fine
      refine ⟨found, member, same, ?_⟩
      by_contra wrong
      simp [wrong] at fine
    · rintro ⟨other, member', same', admitted⟩
      rw [find?_eq_some.mpr ⟨member', same'⟩] at known
      cases known
      simp [admitted]

/-- Relations have no problems exactly if each is one of the category of its element and all its targets are
elements of categories at which it may point. -/
theorem relationCheck_eq_nil :
    diagram.relationCheck = [] ↔
      ∀ e ∈ diagram.elements, ∀ entry ∈ e.attached, ∃ spec, e.category.relation? entry.1 = some spec ∧
        ∀ target ∈ entry.2.targets,
          ∃ found ∈ diagram.elements, found.id = target ∧ found.category ∈ spec.targets := by
  simp only [relationCheck, List.flatMap_eq_nil_iff]
  refine forall₂_congr fun e _ => forall₂_congr fun entry _ => ?_
  unfold relationProblems
  cases e.category.relation? entry.1 with
  | none => simp
  | some spec => simp [List.filterMap_eq_nil_iff, targetProblem?_eq_none]

/-- What relations of elements point at in a diagram without problems. -/
theorem hasFor_of_checked (checked : diagram.relationCheck = []) {e : Element} (member : e ∈ diagram.elements)
    {name : String} {relation : Relation} (attached : (name, relation) ∈ e.attached) {target : String}
    (points : target ∈ relation.targets) : diagram.HasFor name target := by
  obtain ⟨spec, has, each⟩ := relationCheck_eq_nil.mp checked e member (name, relation) attached
  obtain ⟨found, inside, same, admitted⟩ := each target points
  exact ⟨found, inside, same, Category.admits_of_mem has admitted⟩

theorem closed_of_checked (checked : diagram.relationCheck = []) : diagram.Closed diagram.Has := by
  intro e member _ target refers
  obtain ⟨⟨name, relation⟩, attached, points⟩ := List.mem_flatMap.mp refers
  obtain ⟨found, inside, same, -⟩ := hasFor_of_checked checked member attached points
  exact ⟨found, inside, same⟩

end Diagram

/-! ## The last segment -/

namespace Value

theorem Occurs.of_contribution {item part value : Value} (member : part ∈ value.contribution)
    (occurs : item.Occurs part) : item.Occurs value := by
  cases value with
  | undefined => cases member
  | list items => exact .inside member occurs
  | json data => exact List.mem_singleton.mp member ▸ occurs
  | element id => exact List.mem_singleton.mp member ▸ occurs
  | relations id => exact List.mem_singleton.mp member ▸ occurs

theorem not_occurs_ofJson {id : String} (data : Json) : ¬ (element id).Occurs (ofJson data) := by
  have nothing : (ofJson data).Within fun _ => False := within_ofJson data
  exact fun occurs => nothing id (.inl occurs)

/-- No element is a field of an element. -/
theorem not_occurs_ofField {id : String} (e : Element) (segment : String) :
    ¬ (element id).Occurs (ofField e segment) := by
  intro occurs
  unfold ofField at occurs
  split at occurs
  · cases occurs
  split at occurs
  · exact not_occurs_ofJson _ occurs
  split at occurs
  · cases occurs
  split at occurs
  · exact not_occurs_ofJson _ occurs
  · cases occurs

theorem mem_targets_of_occurs {id : String} {relation : Relation}
    (occurs : (element id).Occurs (ofRelation relation)) : id ∈ relation.targets := by
  have within := within_ofRelation.mpr fun target (member : target ∈ relation.targets) => member
  exact within id (.inl occurs)

variable {diagram : Diagram} {id segment : String}

/-- How a step comes to an element: by a relation of that name, from the relations of an element. -/
def Points (diagram : Diagram) (segment id : String) : Prop :=
  ∃ e ∈ diagram.elements, ∃ relation, (segment, relation) ∈ e.attached ∧ id ∈ relation.targets

mutual
theorem points_of_step {value : Value} (occurs : (element id).Occurs (step diagram segment value)) :
    Points diagram segment id := by
  cases value with
  | undefined => rw [step] at occurs; cases occurs
  | json data =>
    cases data with
    | object fields =>
      rw [step] at occurs
      split at occurs
      · exact absurd occurs (not_occurs_ofJson _)
      · cases occurs
    | _ => simp only [step] at occurs; cases occurs
  | element source =>
    rw [step] at occurs
    split at occurs
    · exact absurd occurs (not_occurs_ofField _ _)
    · cases occurs
  | relations source =>
    -- Nothing but the relations of an element leads to elements.
    rw [step] at occurs
    split at occurs
    · rename_i relation present
      obtain ⟨owner, found, has⟩ := Option.bind_eq_some_iff.mp present
      exact ⟨owner, (Diagram.find?_eq_some.mp found).1, relation, Element.mem_attached has,
        mem_targets_of_occurs occurs⟩
    · cases occurs
  | list items =>
    rw [step] at occurs
    cases occurs with
    | inside member occurs => exact points_of_stepItems member occurs

theorem points_of_stepItems {items : List Value} {item : Value}
    (member : item ∈ stepItems diagram segment items) (occurs : (element id).Occurs item) :
    Points diagram segment id := by
  cases items with
  | nil => rw [stepItems] at member; cases member
  | cons first rest =>
    rw [stepItems] at member
    rcases List.mem_append.mp member with here | later
    · exact points_of_step (.of_contribution here occurs)
    · exact points_of_stepItems later occurs
end

/-! ## Paths -/

theorem walk_append (value : Value) (path more : List String) :
    walk diagram value (path ++ more) = walk diagram (walk diagram value path) more :=
  List.foldl_append

/-- A path from the end of a path is a path. -/
theorem walk_ofPath {e : Element} (member : e ∈ diagram.elements) (path more : List String) :
    walk diagram (ofPath ⟨diagram, e⟩ path) more = ofPath ⟨diagram, e⟩ (path ++ more) := by
  cases path with
  | cons first rest => exact (walk_append _ rest more).symm
  | nil =>
    cases more with
    | nil => rfl
    | cons first rest =>
      have here : step diagram first (element e.id) = ofField e first := by
        rw [step, Diagram.find?_eq_some.mpr ⟨member, rfl⟩]
      exact congrArg (walk diagram · rest) here

variable (checked : diagram.relationCheck = [])

include checked

theorem hasFor_of_step {value : Value} (occurs : (element id).Occurs (step diagram segment value)) :
    diagram.HasFor segment id := by
  obtain ⟨e, member, relation, attached, points⟩ := points_of_step occurs
  exact Diagram.hasFor_of_checked checked member attached points

theorem hasFor_of_walk {value : Value} {path : List String}
    (occurs : (element id).Occurs (walk diagram value (path ++ [segment]))) : diagram.HasFor segment id := by
  rw [walk_append] at occurs
  exact hasFor_of_step checked occurs

theorem hasFor_of_ofPath {e : Element} (member : e ∈ diagram.elements) {path : List String}
    (occurs : (element id).Occurs (ofPath ⟨diagram, e⟩ (path ++ [segment]))) : diagram.HasFor segment id := by
  rw [← walk_ofPath member] at occurs
  exact hasFor_of_step checked occurs

theorem has_of_ofPath {e : Element} (member : e ∈ diagram.elements) (path : List String) :
    (ofPath ⟨diagram, e⟩ path).Within diagram.Has :=
  within_ofPath (Diagram.closed_of_checked checked) ⟨e, member, rfl⟩ path

end Value
end ThreatModel
