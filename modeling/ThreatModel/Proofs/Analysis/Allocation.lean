import Mathlib.Tactic.Ring
import ThreatModel.Proofs.Analysis.Refinement
import ThreatModel.Proofs.Scope.Bracket

/-!
# How many blocks an evaluation opens

Every condition is evaluated, also when the outcome of its list is known already. Main statement: the blocks that the
evaluation of a rule opens are one for each element of its category and one more for each list that is not nested too
deep, so their number depends on the shape of the rule and not on what its conditions come to.
-/

namespace ThreatModel

namespace Condition

mutual
/-- The nestings of the lists in a condition that stands at `depth`. -/
def nestings (depth : Nat) : Condition → List Nat
  | list _ children => depth :: nestingsOf (depth + 1) children
  | design _ => []
  | binding _ => []

def nestingsOf (depth : Nat) : List Condition → List Nat
  | [] => []
  | child :: rest => nestings depth child ++ nestingsOf depth rest
end

/-- How many lists of a rule's condition are not nested too deep. -/
def shallowLists (maxDepth : Nat) (condition : Condition) : Nat := (condition.nestings 1).countP (· ≤ maxDepth)

mutual
theorem le_of_mem_nestings {depth nesting : Nat} {condition : Condition} (member : nesting ∈ condition.nestings depth) :
    depth ≤ nesting := by
  cases condition with
  | list combinator children =>
    rw [nestings] at member
    rcases List.mem_cons.mp member with rfl | inner
    · exact Nat.le_refl _
    · exact Nat.le_of_succ_le (le_of_mem_nestingsOf inner)
  | design expression => simp [nestings] at member
  | binding expression => simp [nestings] at member

theorem le_of_mem_nestingsOf {depth nesting : Nat} {conditions : List Condition}
    (member : nesting ∈ nestingsOf depth conditions) : depth ≤ nesting := by
  cases conditions with
  | nil => simp [nestingsOf] at member
  | cons child rest =>
    rw [nestingsOf] at member
    rcases List.mem_append.mp member with here | later
    · exact le_of_mem_nestings here
    · exact le_of_mem_nestingsOf later
end

end Condition

namespace Scope

@[simp] theorem allocated_enter (scope : Scope) : scope.enter.2.allocated = scope.allocated + 1 := rfl

@[simp] theorem allocated_leave (scope : Scope) : scope.leave.allocated = scope.allocated := by
  unfold leave pop
  split <;> rfl

end Scope

namespace Analyzer

variable (maxDepth : Nat) (context : Context)

/-- Bindings are made in blocks that are open. -/
theorem allocated_bindAll (block : BlockId) (scope : Scope) (children : List Condition) :
    (bindAll context block scope children).allocated = scope.allocated := by
  induction children generalizing scope with
  | nil => rfl
  | cons child rest ih =>
    cases child with
    | list combinator inner => exact ih scope
    | design expression => exact ih scope
    | binding expression =>
      have kept := (Scope.allocated_after scope (.bind expression context block)).resolve_right (by simp [Scope.given?])
      rw [bindAll]
      simp only [Scope.after] at kept
      split
      · rename_i bound made
        rw [made] at kept
        exact (ih bound).trans kept.2
      · exact ih scope

mutual
/-- A condition opens a block for each list in it that is not nested too deep, whatever it comes to. -/
theorem allocated_holds (block : BlockId) (depth : Nat) (scope : Scope) (condition : Condition) :
    (holds maxDepth context block depth scope condition).2.allocated =
      scope.allocated + (condition.nestings (depth + 1)).countP (· ≤ maxDepth) := by
  cases condition with
  | design expression => rw [holds, Condition.nestings]; rfl
  | binding expression => rw [holds, Condition.nestings]; rfl
  | list combinator children =>
    rw [holds_list]
    split
    · rename_i deep
      -- Every list inside is nested deeper still.
      have none : ((Condition.list combinator children).nestings (depth + 1)).countP (· ≤ maxDepth) = 0 := by
        rw [List.countP_eq_zero]
        intro nesting member
        have below := Condition.le_of_mem_nestings member
        simp only [decide_eq_true_eq]
        omega
      rw [none, Nat.add_zero]
    · rename_i shallow
      have inside : depth + 1 ≤ maxDepth := by omega
      rw [Condition.nestings, List.countP_cons, if_pos (decide_eq_true inside)]
      simp only [Scope.allocated_leave, allocated_outcomesOf, allocated_bindAll, Scope.allocated_enter]
      ring

theorem allocated_outcomesOf (block : BlockId) (depth : Nat) (scope : Scope) (children : List Condition) :
    (outcomesOf maxDepth context block depth scope children).2.allocated =
      scope.allocated + (Condition.nestingsOf (depth + 1) children).countP (· ≤ maxDepth) := by
  cases children with
  | nil => rw [outcomesOf, Condition.nestingsOf]; rfl
  | cons child rest =>
    rw [outcomesOf_cons, Condition.nestingsOf, List.countP_append]
    split
    · rename_i skipped
      obtain ⟨expression, rfl⟩ : ∃ expression, child = .binding expression := by
        cases child <;> simp_all [Condition.isBinding]
      rw [allocated_outcomesOf block depth scope rest, Condition.nestings, List.countP_nil, Nat.zero_add]
    · simp only [allocated_outcomesOf, allocated_holds, Nat.add_assoc]
end

theorem allocated_satisfies (scope : Scope) (rule : Rule) :
    (satisfies maxDepth scope rule context).2.allocated =
      scope.allocated + (1 + rule.condition.shallowLists maxDepth) := by
  simp only [satisfies, Scope.allocated_leave, allocated_holds, Scope.allocated_enter, Nat.add_assoc]
  rfl

theorem allocated_findingsOn (diagram : Diagram) (rule : Rule) (threat : Threat) (scope : Scope)
    (elements : List Element) :
    (findingsOn maxDepth diagram rule threat scope elements).2.allocated =
      scope.allocated + elements.length * (1 + rule.condition.shallowLists maxDepth) := by
  induction elements generalizing scope with
  | nil => simp [findingsOn]
  | cons element rest ih =>
    rw [findingsOn]
    simp only [ih, allocated_satisfies, List.length_cons]
    ring

/-- The evaluation of a rule gives as many numbers as its category has elements, times the lists of the rule that are
not nested too deep and one more, whatever the elements are and whatever was evaluated before; if the threat is
unknown it gives none. -/
theorem allocated_evaluate (analyzer : Analyzer) (rule : Rule) (diagram : Diagram) (threats : List Threat) :
    (analyzer.evaluate rule diagram threats).2.scope.allocated = analyzer.scope.allocated +
      if rule.threat ∈ threats.map Threat.id then
        diagram.elements.countP (·.category = rule.category) *
          (1 + rule.condition.shallowLists analyzer.maxDepth)
      else 0 := by
  unfold evaluate
  rcases find?_threat threats rule.threat with ⟨none, unknown⟩ | ⟨threat, found, -, known⟩
  · simp only [none, unknown, if_false, Nat.add_zero]
  · simp only [found, known, if_true, Scope.clear, allocated_findingsOn, Diagram.ofCategory, List.countP_eq_length_filter]

/-- A list that is nested too deep is not opened, nor are those in it. -/
example : (Condition.list .any [.design "1 == 1", .list .all [.list .any [.list .all []]]]).shallowLists 2 = 2 := by
  decide

end Analyzer
end ThreatModel
