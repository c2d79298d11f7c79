import ThreatModel.Proofs.Diagram.Order
import ThreatModel.Proofs.Path.Enumeration
import ThreatModel.Proofs.Path.Relations
import Mathlib.Data.List.Perm.Basic

/-!
# What the check of relations reports

A problem of relations has its place in a diagram: an element, one of its relations and, unless the element may not
have that relation at all, one of its targets. Main statement: the check reports the problem of each place that has
one, in the order of the places, and nothing else.
-/

namespace ThreatModel

/-! ## Places -/

section Numbered

variable {α β : Type} (found : α → List (List Nat × β)) (items : List α)

/-- What is found in items, each place with the index of its item in front. -/
def numbered : List (List Nat × β) :=
  items.zipIdx.flatMap fun item => (found item.1).map fun entry => (item.2 :: entry.1, entry.2)

theorem map_numbered : (numbered found items).map (·.2) = items.flatMap fun item => (found item).map (·.2) := by
  have forget (item : α × Nat) : (((found item.1).map fun entry => (item.2 :: entry.1, entry.2)).map (·.2)) =
      (found item.1).map (·.2) := by
    rw [List.map_map]
    rfl
  have items_eq : items = items.zipIdx.map Prod.fst := (List.zipIdx_map_fst 0 items).symm
  rw [numbered, List.map_flatMap]
  simp only [forget]
  conv_rhs => rw [items_eq, List.flatMap_map]

theorem mem_numbered {place : List Nat} {content : β} :
    (place, content) ∈ numbered found items ↔
      ∃ index item rest, place = index :: rest ∧ items[index]? = some item ∧ (rest, content) ∈ found item := by
  rw [numbered, List.mem_flatMap]
  constructor
  · rintro ⟨⟨item, index⟩, stands, member⟩
    obtain ⟨⟨rest, content⟩, inside, same⟩ := List.mem_map.mp member
    cases same
    exact ⟨index, item, rest, rfl, List.mem_zipIdx_iff_getElem?.mp stands, inside⟩
  · rintro ⟨index, item, rest, rfl, stands, inside⟩
    exact ⟨(item, index), List.mem_zipIdx_iff_getElem?.mpr stands, List.mem_map.mpr ⟨(rest, content), inside, rfl⟩⟩

theorem pairwise_numbered (ordered : ∀ item, (found item).Pairwise fun left right => Earlier left.1 right.1) :
    (numbered found items).Pairwise fun left right => Earlier left.1 right.1 := by
  rw [numbered, List.pairwise_flatMap]
  constructor
  · intro item _
    rw [List.pairwise_map]
    exact (ordered item.1).imp .agrees
  · refine (pairwise_zipIdx items).imp ?_
    intro item later less first before second behind
    obtain ⟨entry, -, rfl⟩ := List.mem_map.mp before
    obtain ⟨other, -, rfl⟩ := List.mem_map.mp behind
    exact .parts less

end Numbered

/-! ## Problems at places -/

namespace Diagram

variable {diagram : Diagram}

/-- What is wrong with a target of a relation that may point at some categories: no element has its id, or one of
another category has. -/
inductive TargetFault (diagram : Diagram) (e : Element) (name : String) (allowed : List Category) (target : String) :
    RelationProblem → Prop
  | unknown (missing : ¬ diagram.Has target) :
      TargetFault diagram e name allowed target (.unknownTarget e.id name target)
  | category {found : Element} (there : found ∈ diagram.elements) (same : found.id = target)
      (apart : found.category ∉ allowed) :
      TargetFault diagram e name allowed target (.wrongCategory e.id name target found.category allowed)

/-- What is wrong at a place: at a relation that elements of the category may not have, whatever it points at, or at a
target of a relation that they may have. -/
inductive Faulty (diagram : Diagram) : List Nat → RelationProblem → Prop
  | illegal {i j : Nat} {e : Element} {name : String} {relation : Relation}
      (drawn : diagram.elements[i]? = some e) (attached : e.attached[j]? = some (name, relation))
      (illegal : e.category.relation? name = none) :
      Faulty diagram [i, j] (.invalidRelation e.id e.category name)
  | target {i j k : Nat} {e : Element} {name : String} {relation : Relation} {spec : RelationSpec} {target : String}
      {problem : RelationProblem} (drawn : diagram.elements[i]? = some e)
      (attached : e.attached[j]? = some (name, relation)) (legal : e.category.relation? name = some spec)
      (points : relation.targets[k]? = some target)
      (fault : diagram.TargetFault e name spec.targets target problem) :
      Faulty diagram [i, j, k] problem

/-- Problems are those of all faulty places, one for each, in the order of the places. -/
def Reports (diagram : Diagram) (problems : List RelationProblem) : Prop :=
  ∃ faults : List (List Nat × RelationProblem), problems = faults.map (·.2) ∧
    faults.Pairwise (fun left right => Earlier left.1 right.1) ∧
    ∀ place problem, (place, problem) ∈ faults ↔ diagram.Faulty place problem

/-! ## The check -/

theorem targetProblem?_eq_some {e : Element} {spec : RelationSpec} {target : String} {problem : RelationProblem} :
    diagram.targetProblem? e spec target = some problem ↔
      diagram.TargetFault e spec.name spec.targets target problem := by
  unfold targetProblem?
  cases known : diagram.find? target with
  | none =>
    have missing : ¬ diagram.Has target := by
      rintro ⟨found, there, same⟩
      rw [find?_eq_some.mpr ⟨there, same⟩] at known
      cases known
    constructor
    · intro shown
      cases shown
      exact .unknown missing
    · intro fault
      cases fault with
      | unknown => rfl
      | category there same => exact absurd ⟨_, there, same⟩ missing
  | some found =>
    obtain ⟨there, same⟩ := find?_eq_some.mp known
    dsimp only
    constructor
    · intro shown
      split at shown
      · cases shown
      · rename_i apart
        cases shown
        exact .category there same apart
    · intro fault
      cases fault with
      | unknown missing => exact absurd ⟨found, there, same⟩ missing
      | category there' same' apart =>
        rw [find?_eq_some.mpr ⟨there', same'⟩] at known
        cases known
        rw [if_neg apart]

/-- The faults of one relation of an element, with the indices of the targets. -/
def relationFaults (diagram : Diagram) (e : Element) (entry : String × Relation) : List (List Nat × RelationProblem) :=
  match e.category.relation? entry.1 with
  | none => [([], .invalidRelation e.id e.category entry.1)]
  | some spec =>
    numbered (fun target => (diagram.targetProblem? e spec target).toList.map ([], ·)) entry.2.targets

def elementFaults (diagram : Diagram) (e : Element) : List (List Nat × RelationProblem) :=
  numbered (diagram.relationFaults e) e.attached

/-- All faults of a diagram with their places. -/
def faults (diagram : Diagram) : List (List Nat × RelationProblem) :=
  numbered diagram.elementFaults diagram.elements

theorem map_relationFaults (e : Element) (entry : String × Relation) :
    (diagram.relationFaults e entry).map (·.2) = diagram.relationProblems e entry.1 entry.2 := by
  unfold relationFaults relationProblems
  cases e.category.relation? entry.1 with
  | none => rfl
  | some spec =>
    dsimp only
    rw [map_numbered, List.filterMap_eq_flatMap_toList]
    refine List.flatMap_congr fun target _ => ?_
    rw [List.map_map]
    exact List.map_id _

theorem map_faults : diagram.faults.map (·.2) = diagram.relationCheck := by
  rw [faults, map_numbered, relationCheck]
  refine List.flatMap_congr fun e _ => ?_
  rw [elementFaults, map_numbered]
  exact List.flatMap_congr fun entry _ => map_relationFaults e entry

theorem mem_relationFaults {e : Element} {entry : String × Relation} {place : List Nat} {problem : RelationProblem} :
    (place, problem) ∈ diagram.relationFaults e entry ↔
      (place = [] ∧ e.category.relation? entry.1 = none ∧ problem = .invalidRelation e.id e.category entry.1) ∨
      ∃ k spec target, place = [k] ∧ e.category.relation? entry.1 = some spec ∧ entry.2.targets[k]? = some target ∧
        diagram.TargetFault e entry.1 spec.targets target problem := by
  unfold relationFaults
  cases known : e.category.relation? entry.1 with
  | none => simp
  | some spec =>
    obtain ⟨-, named⟩ := Category.mem_relations known
    simp only [mem_numbered, List.mem_map, Option.mem_toList, targetProblem?_eq_some, named, reduceCtorEq, false_and,
      and_false, false_or]
    constructor
    · rintro ⟨k, target, rest, rfl, points, other, fault, same⟩
      cases same
      exact ⟨k, spec, target, rfl, rfl, points, fault⟩
    · rintro ⟨k, other, target, rfl, same, points, fault⟩
      cases same
      exact ⟨k, target, [], rfl, points, problem, fault, rfl⟩

theorem mem_faults {place : List Nat} {problem : RelationProblem} :
    (place, problem) ∈ diagram.faults ↔ diagram.Faulty place problem := by
  simp only [faults, elementFaults, mem_numbered, mem_relationFaults]
  constructor
  · rintro ⟨i, e, -, rfl, drawn, j, entry, -, rfl, attached, ⟨rfl, illegal, rfl⟩ | ⟨k, spec, target, rfl, legal, points,
      fault⟩⟩
    · exact .illegal drawn attached illegal
    · exact .target drawn attached legal points fault
  · intro faulty
    cases faulty with
    | illegal drawn attached illegal =>
      exact ⟨_, _, _, rfl, drawn, _, _, _, rfl, attached, .inl ⟨rfl, illegal, rfl⟩⟩
    | target drawn attached legal points fault =>
      exact ⟨_, _, _, rfl, drawn, _, _, _, rfl, attached, .inr ⟨_, _, _, rfl, legal, points, fault⟩⟩

theorem pairwise_relationFaults (e : Element) (entry : String × Relation) :
    (diagram.relationFaults e entry).Pairwise fun left right => Earlier left.1 right.1 := by
  unfold relationFaults
  cases e.category.relation? entry.1 with
  | none => exact List.pairwise_singleton _ _
  | some spec =>
    refine pairwise_numbered _ _ fun target => ?_
    cases diagram.targetProblem? e spec target with
    | none => exact .nil
    | some problem => exact List.pairwise_singleton _ _

theorem pairwise_faults : diagram.faults.Pairwise fun left right => Earlier left.1 right.1 :=
  pairwise_numbered _ _ fun e => pairwise_numbered _ _ (pairwise_relationFaults e)

/-- The check of relations reports the problem of each faulty place, in the order of the places, and nothing else. So
it reports nothing exactly if each relation is one of the category of its element and all its targets are elements of
categories at which it may point. The places of a diagram that was read are in the order of the names of relations. -/
theorem reports_iff_relationCheck (diagram : Diagram) :
    (∀ problems, diagram.Reports problems ↔ problems = diagram.relationCheck) ∧
      (diagram.relationCheck = [] ↔
        ∀ e ∈ diagram.elements, ∀ entry ∈ e.attached, ∃ spec, e.category.relation? entry.1 = some spec ∧
          ∀ target ∈ entry.2.targets,
            ∃ found ∈ diagram.elements, found.id = target ∧ found.category ∈ spec.targets) ∧
      ∀ format node, ofNode format node = .ok diagram → ∀ e ∈ diagram.elements, e.Ordered := by
  refine ⟨fun problems => ⟨?_, ?_⟩, relationCheck_eq_nil, fun format node => ordered_of_ofNode⟩
  · rintro ⟨faults, rfl, ordered, exact⟩
    rw [← map_faults, eq_of_earlier ordered pairwise_faults fun place problem =>
      (exact place problem).trans mem_faults.symm]
  · rintro rfl
    exact ⟨diagram.faults, map_faults.symm, pairwise_faults, fun _ _ => mem_faults⟩

/-- A process with a relation that only other categories have, and a relation that points at a flow, at the process
itself, at the flow again and at nothing; the flow comes from the process, said twice. -/
def tangledDiagram : Diagram where
  elements :=
    [⟨"p", ⟨.process, "process", none, []⟩, [("dataflow", .many ["f", "p", "f", "q"]), ("zone", .one "q")], []⟩,
      ⟨"f", ⟨.dataflow, "arrow", none, []⟩, [("process", .one "p"), ("source", .many ["p", "p"])], []⟩]
  nodup := by decide

theorem reports_iff_relationCheck_tangled :
    tangledDiagram.Reports
      [.wrongCategory "p" "dataflow" "p" .process [.dataflow], .unknownTarget "p" "dataflow" "q",
        .invalidRelation "p" .process "zone",
        .wrongCategory "f" "source" "p" .process [.entity, .datastore],
        .wrongCategory "f" "source" "p" .process [.entity, .datastore]] ∧
      ofNode .json tangledDiagram.toJson.toNode = .ok tangledDiagram ∧
      ∀ e ∈ tangledDiagram.elements, e.Ordered := by
  have read : ofNode .json tangledDiagram.toJson.toNode = .ok tangledDiagram := by rfl
  obtain ⟨reports, -, ordered⟩ := reports_iff_relationCheck tangledDiagram
  exact ⟨(reports _).mpr (by decide), read, ordered _ _ read⟩

end Diagram
end ThreatModel
