import ThreatModel.Proofs.Validation.Place

/-!
# The parts of a condition and their places

Every part of a condition has a place in the document: a list that of its children, a comparison or a binding that of
its text. Main statement: no two parts have the same place.
-/

namespace ThreatModel.Condition

/-- A part of a condition, its place, and how many lists it stands in. A list counts as one that it stands in. -/
structure Site where
  place : Place
  nesting : Nat
  part : Condition

mutual
/-- The parts of a condition in a list at `depth`, a list before what is in it. -/
def sitesFrom (place : Place) (depth : Nat) : Condition → List Site
  | list combinator children =>
    ⟨place ++ [.key combinator.key], depth + 1, list combinator children⟩ ::
      sitesOf (place ++ [.key combinator.key]) (depth + 1) 0 children
  | design expression => [⟨place ++ [.key "design"], depth, design expression⟩]
  | binding expression => [⟨place ++ [.key "variable"], depth, binding expression⟩]

def sitesOf (place : Place) (depth index : Nat) : List Condition → List Site
  | [] => []
  | child :: rest => sitesFrom (place ++ [.index index]) depth child ++ sitesOf place depth (index + 1) rest
end

/-- The parts of the condition of a rule. -/
def sites (condition : Condition) : List Site := condition.sitesFrom [] 0

/-- Whether a part is a list at some nesting. -/
def Site.isListAt (nesting : Nat) (site : Site) : Bool :=
  match site.part with
  | list _ _ => site.nesting = nesting
  | _ => false

variable {place : Place} {depth index : Nat} {condition : Condition} {children : List Condition} {site : Site}

theorem mem_sitesOf : site ∈ sitesOf place depth index children ↔
    ∃ i child, children[i]? = some child ∧ site ∈ sitesFrom (place ++ [.index (index + i)]) depth child := by
  induction children generalizing index with
  | nil => simp [sitesOf]
  | cons child rest ih =>
    have later := @ih (index + 1)
    simp only [Nat.add_assoc, Nat.add_comm 1] at later
    rw [sitesOf, List.mem_append, later, Validation.exists_getElem?_cons]
    rfl

/-- A part stands inside what it is a part of. -/
theorem prefix_of_mem_sites (member : site ∈ condition.sitesFrom place depth) : place <+: site.place := by
  induction condition using Condition.induction generalizing place depth with
  | design expression =>
    rw [sitesFrom, List.mem_singleton] at member
    rw [member]
    exact List.prefix_append _ _
  | binding expression =>
    rw [sitesFrom, List.mem_singleton] at member
    rw [member]
    exact List.prefix_append _ _
  | list combinator children ih =>
    rw [sitesFrom] at member
    rcases List.mem_cons.mp member with rfl | inside
    · exact List.prefix_append _ _
    · obtain ⟨i, child, found, inner⟩ := mem_sitesOf.mp inside
      have below := ih child (List.mem_of_getElem? found) inner
      rw [List.append_assoc] at below
      exact (List.prefix_append _ _).trans below

/-- The parts of different conditions of a list have different places. -/
theorem nodup_sitesOf
    (each : ∀ child ∈ children, ∀ place, ((child.sitesFrom place depth).map Site.place).Nodup) :
    ((sitesOf place depth index children).map Site.place).Nodup := by
  induction children generalizing index with
  | nil => simp [sitesOf]
  | cons child rest ih =>
    obtain ⟨first, others⟩ := List.forall_mem_cons.mp each
    rw [sitesOf, List.map_append]
    refine List.nodup_append.mpr ⟨first _, ih others, ?_⟩
    intro path here path' later same
    obtain ⟨site, inFirst, rfl⟩ := List.mem_map.mp here
    obtain ⟨other, inRest, rfl⟩ := List.mem_map.mp later
    obtain ⟨i, child', -, inside⟩ := mem_sitesOf.mp inRest
    have left := prefix_of_mem_sites inFirst
    have right := prefix_of_mem_sites inside
    rw [← same] at right
    have equal := Validation.index_unique left right
    omega

/-- No two parts of a condition have the same place. -/
theorem nodup_places (condition : Condition) (place : Place) (depth : Nat) :
    ((condition.sitesFrom place depth).map Site.place).Nodup := by
  induction condition using Condition.induction generalizing place depth with
  | design expression => simp [sitesFrom]
  | binding expression => simp [sitesFrom]
  | list combinator children ih =>
    rw [sitesFrom, List.map_cons, List.nodup_cons]
    refine ⟨?_, nodup_sitesOf fun child member place => ih child member place _⟩
    -- What is in the list stands behind an index, so its place is longer.
    intro own
    obtain ⟨site, inside, same⟩ := List.mem_map.mp own
    obtain ⟨i, child, -, inner⟩ := mem_sitesOf.mp inside
    have longer := (prefix_of_mem_sites inner).length_le
    simp [same] at longer

end ThreatModel.Condition
