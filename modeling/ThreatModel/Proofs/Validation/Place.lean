import ThreatModel.Validation
import ThreatModel.Proofs.Analysis.Meaning

/-!
# Where diagnostics point

Main statement: the diagnostics of a condition point to places inside it. Two conditions of a list are at
different places, so each diagnostic is of the condition that it points into.
-/

namespace ThreatModel

/-- The problems that a condition may have. -/
def Problem.concernsCondition : Problem → Bool
  | .tooDeep _ _ | .emptyList | .noConditions | .unbound _ | .invalidCondition _ _ | .invalidBinding _ _ => true
  | _ => false

/-- What a problem says of the part of a condition that has it. -/
def Problem.IsOf (part : Condition) (problem : Problem) : Prop :=
  match part, problem with
  | .list _ _, .tooDeep _ _ => True
  | .list _ children, .emptyList => children = []
  | .list _ children, .noConditions => children ≠ [] ∧ ∀ child ∈ children, child.isBinding = true
  | .design expression, .invalidCondition text fault =>
    text = expression ∧ Expression.parse expression .design = .error fault
  | .design expression, .unbound name => ∃ left op right,
    Expression.parse expression .design = .ok (.comparison left op right) ∧
      (left.variableName? = some name ∨ right.variableName? = some name)
  | .binding expression, .invalidBinding text fault =>
    text = expression ∧ Expression.parse expression .binding = .error fault
  | .binding expression, .unbound name => ∃ target source,
    Expression.parse expression .binding = .ok (.binding target source) ∧ source.variableName? = some name
  | _, _ => False

theorem Problem.IsOf.concerns {part : Condition} {problem : Problem} (of : problem.IsOf part) :
    problem.concernsCondition = true := by
  cases problem
  case tooDeep | emptyList | noConditions | unbound | invalidCondition | invalidBinding => rfl
  all_goals cases part <;> exact False.elim of

namespace Validation

/-- A diagnostic of what stands at a place or below it. -/
structure Below (place : Place) (diagnostic : Diagnostic) : Prop where
  place : place <+: diagnostic.place
  problem : diagnostic.problem.concernsCondition = true

/-- What points below a part points below the whole. -/
theorem Below.up {place steps : Place} {diagnostic : Diagnostic} (below : Below (place ++ steps) diagnostic) :
    Below place diagnostic :=
  ⟨(List.prefix_append place steps).trans below.place, below.problem⟩

theorem below_self {place : Place} {problem : Problem} (concerns : problem.concernsCondition = true) :
    Below place ⟨place, problem⟩ := ⟨List.prefix_rfl, concerns⟩

/-- A place is inside one condition of a list. -/
theorem index_unique {place path : Place} {i j : Nat} (left : place ++ [.index i] <+: path)
    (right : place ++ [.index j] <+: path) : i = j := by
  obtain ⟨tail, rfl⟩ := left
  obtain ⟨tail', same⟩ := right
  rw [List.append_assoc, List.append_assoc] at same
  cases List.append_cancel_left same
  rfl

/-- What is said of a condition of a list and its index is said of the first condition or of a later one. -/
theorem exists_getElem?_cons {child : Condition} {rest : List Condition} {p : Nat → Condition → Prop} :
    (∃ i other, (child :: rest)[i]? = some other ∧ p i other) ↔
      p 0 child ∨ ∃ i other, rest[i]? = some other ∧ p (i + 1) other := by
  constructor
  · rintro ⟨_ | i, other, found, holds⟩
    · cases found
      exact .inl holds
    · exact .inr ⟨i, other, found, holds⟩
  · rintro (holds | ⟨i, other, found, holds⟩)
    · exact ⟨0, child, rfl, holds⟩
    · exact ⟨i + 1, other, found, holds⟩

/-! ## Comparisons and bindings -/

theorem mem_unboundIn {bound : List String} {place : Place} {operand : Operand} {diagnostic : Diagnostic}
    (member : diagnostic ∈ unboundIn bound place operand) :
    ∃ name segments, operand = .named name segments ∧ name ∉ bound ∧
      diagnostic = ⟨place, .unbound name⟩ := by
  cases operand with
  | path segments => cases member
  | literal content => cases member
  | named name segments =>
    by_cases known : name ∈ bound
    · simp [unboundIn, Operand.variableName?, known] at member
    · simp only [unboundIn, Operand.variableName?, known, if_false, List.mem_singleton] at member
      exact ⟨name, segments, rfl, known, member⟩

theorem mem_designProblems {bound : List String} {place : Place} {expression : String} {diagnostic : Diagnostic}
    (member : diagnostic ∈ designProblems bound place expression) :
    diagnostic.place = place ∧ diagnostic.problem.IsOf (.design expression) := by
  unfold designProblems at member
  split at member
  · rename_i left op right parsed
    rcases List.mem_append.mp member with first | second
    · obtain ⟨name, segments, rfl, -, rfl⟩ := mem_unboundIn first
      exact ⟨rfl, _, _, _, parsed, .inl rfl⟩
    · obtain ⟨name, segments, rfl, -, rfl⟩ := mem_unboundIn second
      exact ⟨rfl, _, _, _, parsed, .inr rfl⟩
  · cases member
  · rename_i fault parsed
    cases List.mem_singleton.mp member
    exact ⟨rfl, rfl, parsed⟩

theorem mem_bindingProblems {bound : List String} {place : Place} {expression : String} {diagnostic : Diagnostic}
    (member : diagnostic ∈ (bindingProblems bound place expression).1) :
    diagnostic.place = place ∧ diagnostic.problem.IsOf (.binding expression) := by
  unfold bindingProblems at member
  split at member
  · rename_i target source parsed
    obtain ⟨name, segments, rfl, -, rfl⟩ := mem_unboundIn member
    exact ⟨rfl, _, _, parsed, rfl⟩
  · cases member
  · rename_i fault parsed
    cases List.mem_singleton.mp member
    exact ⟨rfl, rfl, parsed⟩

/-- A diagnostic of the bindings of a list points to one of them. -/
theorem mem_bindingsProblems {place : Place} {bound : List String} {index : Nat} {children : List Condition}
    {diagnostic : Diagnostic} (member : diagnostic ∈ (bindingsProblems place bound index children).1) :
    ∃ i expression, children[i]? = some (.binding expression) ∧
      diagnostic.place = place ++ [.index (index + i), .key "variable"] ∧
      diagnostic.problem.IsOf (.binding expression) := by
  induction children generalizing bound index with
  | nil => cases member
  | cons child rest ih =>
    have later : ∀ {bound}, diagnostic ∈ (bindingsProblems place bound (index + 1) rest).1 →
        ∃ i expression, (child :: rest)[i]? = some (.binding expression) ∧
          diagnostic.place = place ++ [.index (index + i), .key "variable"] ∧
          diagnostic.problem.IsOf (.binding expression) := by
      intro bound member
      obtain ⟨i, expression, found, stands, of⟩ := ih member
      refine ⟨i + 1, expression, found, ?_, of⟩
      rw [stands, Nat.add_assoc, Nat.add_comm 1 i]
    cases child with
    | list combinator children => exact later member
    | design expression => exact later member
    | binding expression =>
      rcases List.mem_append.mp member with first | others
      · obtain ⟨stands, of⟩ := mem_bindingProblems first
        exact ⟨0, expression, rfl, stands, of⟩
      · exact later others

theorem bindingsProblems_skip {child : Condition} (condition : child.isBinding = false) (place : Place)
    (bound : List String) (index : Nat) (rest : List Condition) :
    bindingsProblems place bound index (child :: rest) = bindingsProblems place bound (index + 1) rest := by
  cases child with
  | list combinator children => rfl
  | design expression => rfl
  | binding expression => cases condition

theorem eq_binding {child : Condition} (binding : child.isBinding = true) :
    ∃ expression, child = .binding expression := by
  cases child with
  | list combinator children => cases binding
  | design expression => cases binding
  | binding expression => exact ⟨expression, rfl⟩

/-! ## Conditions -/

/-- A class of diagnostics without the warnings of a list about its own children has none of these. -/
theorem filter_emptyList {p : Diagnostic → Bool} {place : Place} (others : p ⟨place, .emptyList⟩ = false)
    (children : List Condition) : (if children.isEmpty then [⟨place, .emptyList⟩] else []).filter p = [] := by
  split
  · rw [List.filter_cons_of_neg (by simp [others]), List.filter_nil]
  · rfl

theorem filter_barrenProblems {p : Diagnostic → Bool} {place : Place} (others : p ⟨place, .noConditions⟩ = false)
    (children : List Condition) : (barrenProblems place children).filter p = [] := by
  unfold barrenProblems
  split
  · rw [List.filter_cons_of_neg (by simp [others]), List.filter_nil]
  · rfl

variable {maxDepth : Nat}

/-- A diagnostic of the conditions of a list is of one of them. -/
theorem mem_childrenProblems {place : Place} {depth : Nat} {bound : List String} {index : Nat}
    {children : List Condition} {diagnostic : Diagnostic}
    (member : diagnostic ∈ childrenProblems maxDepth place depth bound index children) :
    ∃ i child, children[i]? = some child ∧
      diagnostic ∈ childProblems maxDepth (place ++ [.index (index + i)]) depth bound child := by
  induction children generalizing index with
  | nil =>
    rw [childrenProblems] at member
    cases member
  | cons child rest ih =>
    rw [childrenProblems] at member
    rcases List.mem_append.mp member with first | others
    · exact ⟨0, child, rfl, first⟩
    · obtain ⟨i, found, stands, member⟩ := ih others
      refine ⟨i + 1, found, stands, ?_⟩
      rwa [Nat.add_assoc, Nat.add_comm 1 i] at member

/-- The diagnostics of a list that is not nested too deep: its own, those of its bindings and those of its
conditions. -/
theorem mem_listProblems {place : Place} {depth : Nat} {bound : List String} {combinator : Combinator}
    {children : List Condition} {diagnostic : Diagnostic} (shallow : ¬ maxDepth < depth + 1)
    (member : diagnostic ∈ childProblems maxDepth place depth bound (.list combinator children)) :
    (diagnostic.place = place ++ [.key combinator.key] ∧
        (diagnostic.problem = .emptyList ∨ diagnostic.problem = .noConditions) ∧
        diagnostic.problem.IsOf (.list combinator children)) ∨
      diagnostic ∈ (bindingsProblems (place ++ [.key combinator.key]) bound 0 children).1 ∨
      diagnostic ∈ childrenProblems maxDepth (place ++ [.key combinator.key]) (depth + 1)
        (bindingsProblems (place ++ [.key combinator.key]) bound 0 children).2 0 children := by
  rw [childProblems] at member
  simp only [if_neg shallow, List.mem_append] at member
  rcases member with ((empty | bindings) | conditions) | barren
  · split at empty
    · rename_i none
      cases List.mem_singleton.mp empty
      exact .inl ⟨rfl, .inl rfl, List.isEmpty_iff.mp none⟩
    · cases empty
  · exact .inr (.inl bindings)
  · exact .inr (.inr conditions)
  · unfold barrenProblems at barren
    split at barren
    · rename_i bindings
      cases List.mem_singleton.mp barren
      exact .inl ⟨rfl, .inr rfl, by simpa [Problem.IsOf] using bindings⟩
    · cases barren

/-- The diagnostics of a condition point into it. -/
theorem below_childProblems {place : Place} {depth : Nat} {bound : List String} (condition : Condition)
    {diagnostic : Diagnostic} (member : diagnostic ∈ childProblems maxDepth place depth bound condition) :
    Below place diagnostic := by
  induction condition using Condition.induction generalizing place depth bound with
  | binding expression =>
    rw [childProblems] at member
    cases member
  | design expression =>
    rw [childProblems] at member
    obtain ⟨stands, of⟩ := mem_designProblems member
    exact ⟨stands ▸ List.prefix_append _ _, of.concerns⟩
  | list combinator children ih =>
    by_cases deep : maxDepth < depth + 1
    · rw [childProblems] at member
      simp only [if_pos deep, List.mem_singleton] at member
      subst member
      exact (below_self rfl).up
    · rcases mem_listProblems deep member with ⟨stands, -, own⟩ | bindings | conditions
      · exact ⟨stands ▸ List.prefix_append _ _, own.concerns⟩
      · obtain ⟨i, expression, -, stands, of⟩ := mem_bindingsProblems bindings
        exact ⟨by rw [stands, List.append_assoc]; exact List.prefix_append _ _, of.concerns⟩
      · obtain ⟨i, child, found, member⟩ := mem_childrenProblems conditions
        exact (ih child (List.mem_of_getElem? found) member).up.up

end Validation
end ThreatModel
