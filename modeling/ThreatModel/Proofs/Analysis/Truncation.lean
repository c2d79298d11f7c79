import Mathlib.Data.List.Basic
import Mathlib.Order.MinMax
import ThreatModel.Proofs.Analysis.Refinement

/-!
# The bound on nesting

A list that is nested too deep never holds, as if any of no conditions stood in its place. Main statement: a
bound on nesting has the effect of taking such lists out of the tree of a rule, it has no effect on a tree
that is not deeper, and a greater bound finds what a smaller one finds and perhaps more.
-/

namespace ThreatModel

namespace Condition

/-- A condition in which no more than `bound` lists stand inside one another: a list inside so many others
never holds. -/
def truncate : Nat → Condition → Condition
  | 0, .list _ _ => never
  | bound + 1, .list combinator children => .list combinator (children.map (truncate bound))
  | _, .design expression => .design expression
  | _, .binding expression => .binding expression

theorem isBinding_truncate (bound : Nat) (condition : Condition) :
    (condition.truncate bound).isBinding = condition.isBinding := by
  cases bound <;> cases condition <;> rfl

/-! ## Depth -/

theorem depth_le_depthOf {child : Condition} {children : List Condition} (member : child ∈ children) :
    child.depth ≤ depthOf children := by
  induction children with
  | nil => cases member
  | cons first rest ih =>
    rw [depthOf]
    rcases List.mem_cons.mp member with rfl | later
    · exact Nat.le_max_left ..
    · exact (ih later).trans (Nat.le_max_right ..)

theorem depthOf_map_le {change : Condition → Condition} {children : List Condition}
    (each : ∀ child ∈ children, (change child).depth ≤ child.depth) :
    depthOf (children.map change) ≤ depthOf children := by
  induction children with
  | nil => exact le_rfl
  | cons first rest ih =>
    obtain ⟨here, others⟩ := List.forall_mem_cons.mp each
    rw [List.map_cons, depthOf, depthOf]
    exact max_le_max here (ih others)

/-- Truncation adds no depth. -/
theorem depth_truncate_le (bound : Nat) (condition : Condition) :
    (condition.truncate bound).depth ≤ condition.depth := by
  induction condition using Condition.induction generalizing bound with
  | list combinator children ih =>
    cases bound with
    | zero => simp [truncate, never, depth, depthOf]
    | succ bound =>
      rw [truncate, depth, depth]
      exact Nat.succ_le_succ (depthOf_map_le fun child member => ih child member bound)
  | design expression => cases bound <;> exact le_rfl
  | binding expression => cases bound <;> exact le_rfl

/-- A condition that is not deeper than the bound stays as it is. -/
theorem truncate_of_depth_le {bound : Nat} {condition : Condition} (shallow : condition.depth ≤ bound) :
    condition.truncate bound = condition := by
  induction condition using Condition.induction generalizing bound with
  | list combinator children ih =>
    rw [depth] at shallow
    obtain ⟨bound, rfl⟩ : ∃ less, bound = less + 1 := ⟨bound - 1, by omega⟩
    have same : children.map (truncate bound) = children := by
      refine (List.map_congr_left fun child member => ?_).trans (List.map_id children)
      exact ih child member ((depth_le_depthOf member).trans (by omega))
    rw [truncate, same]
  | design expression => cases bound <;> rfl
  | binding expression => cases bound <;> rfl

/-! ## Meaning -/

variable {context : Context} {names : Valuation}

/-- Lists bind the same names before and after. -/
theorem bindAll_truncate (bound : Nat) (children : List Condition) :
    names.bindAll context (children.map (truncate bound)) = names.bindAll context children := by
  induction children generalizing names with
  | nil => rfl
  | cons child rest ih =>
    cases child with
    | list combinator inner => cases bound <;> exact ih
    | design expression => cases bound <;> exact ih
    | binding expression => cases bound <;> exact ih

/-- A condition with `bound` more lists allowed holds exactly if its truncation does, under any bound that the
truncation keeps to. The induction is on the lists that are left, of which `outside` stand around. -/
theorem holds_truncate {bound other outside : Nat} {condition : Condition}
    (enough : outside + (condition.truncate bound).depth ≤ other) :
    (condition.truncate bound).Holds other context names (outside + 1) ↔
      condition.Holds (outside + bound) context names (outside + 1) := by
  induction bound generalizing condition names outside with
  | zero =>
    cases condition with
    | list combinator children => exact iff_of_false not_holds_never (not_holds_deep (by omega))
    | design expression => simp [truncate]
    | binding expression => simp [truncate]
  | succ bound ih =>
    cases condition with
    | design expression => simp [truncate]
    | binding expression => simp [truncate]
    | list combinator children =>
      rw [truncate, depth] at enough
      have each : ∀ child ∈ children, ∀ names : Valuation,
          ((child.truncate bound).Holds other context names (outside + 1 + 1) ↔
            child.Holds (outside + (bound + 1)) context names (outside + 1 + 1)) := by
        intro child member names
        have inside := depth_le_depthOf (List.mem_map_of_mem (f := truncate bound) member)
        have deeper : outside + 1 + (child.truncate bound).depth ≤ other := by omega
        rw [ih deeper, show outside + 1 + bound = outside + (bound + 1) by omega]
      have left : outside + 1 ≤ other := by omega
      have right : outside + 1 ≤ outside + (bound + 1) := by omega
      rw [truncate]
      cases combinator with
      | all =>
        simp only [holds_all, bindAll_truncate, List.forall_mem_map, isBinding_truncate, left, right, true_and]
        exact forall₃_congr fun child member _ => each child member _
      | any =>
        simp only [holds_any, bindAll_truncate, List.mem_map, exists_exists_and_eq_and, isBinding_truncate, left,
          right, true_and]
        exact exists_congr fun child => and_congr_right fun member => and_congr_right' (each child member _)

/-- What holds under a bound holds under a greater one. -/
theorem Holds.mono {bound other depth : Nat} (le : bound ≤ other) {condition : Condition}
    (holds : condition.Holds bound context names depth) : condition.Holds other context names depth := by
  induction condition using Condition.induction generalizing names depth with
  | list combinator children ih =>
    cases combinator with
    | all =>
      obtain ⟨shallow, each⟩ := holds_all.mp holds
      exact holds_all.mpr ⟨shallow.trans le, fun child member kind => ih child member (each child member kind)⟩
    | any =>
      obtain ⟨shallow, child, member, kind, one⟩ := holds_any.mp holds
      exact holds_any.mpr ⟨shallow.trans le, child, member, kind, ih child member one⟩
  | design expression => simpa using holds
  | binding expression => exact absurd holds not_holds_binding

end Condition

/-! ## Rules -/

namespace Rule

/-- A rule with its condition truncated. -/
def truncate (bound : Nat) (rule : Rule) : Rule := { rule with condition := rule.condition.truncate bound }

variable {bound other : Nat} {context : Context} {rule : Rule}

theorem matches_truncate (enough : (rule.truncate bound).condition.depth ≤ other) :
    (rule.truncate bound).Matches other context ↔ rule.Matches bound context := by
  have same : (rule.condition.truncate bound).Holds other context .empty (0 + 1) ↔
      rule.condition.Holds (0 + bound) context .empty (0 + 1) :=
    Condition.holds_truncate (by rw [Nat.zero_add]; exact enough)
  rw [Nat.zero_add, Nat.zero_add] at same
  exact same

theorem findings_truncate (enough : (rule.truncate bound).condition.depth ≤ other) (diagram : Diagram)
    (threats : List Threat) :
    (rule.truncate bound).findings other diagram threats = rule.findings bound diagram threats := by
  simp only [findings, matches_truncate enough]
  rfl

/-- A greater bound finds what a smaller one finds. -/
theorem findings_sublist (le : bound ≤ other) (diagram : Diagram) (threats : List Threat) :
    (rule.findings bound diagram threats).Sublist (rule.findings other diagram threats) := by
  unfold findings
  split
  · refine List.Sublist.map _ ?_
    refine List.monotone_filter_right _ fun element found => ?_
    simp only [decide_eq_true_eq] at found ⊢
    exact ⟨found.1, found.2.mono le⟩
  · exact .slnil

end Rule

namespace Analyzer

/-- A rule under a bound on nesting has the findings of its truncated tree, which is no deeper than its own,
under any bound that this tree keeps to. Under bounds that its own tree keeps to its findings are the same. And
the findings under a bound are among those under a greater one, in their order. None of this depends on what
the analyzers have evaluated before. -/
theorem evaluate_truncate (bound other : Nat) (rule : Rule) (diagram : Diagram) (threats : List Threat)
    (history history' : List Call) :
    (rule.truncate bound).condition.depth ≤ rule.condition.depth ∧
    ((rule.truncate bound).condition.depth ≤ other →
      (((Analyzer.new other).after history').evaluate (rule.truncate bound) diagram threats).1 =
        (((Analyzer.new bound).after history).evaluate rule diagram threats).1) ∧
    (rule.condition.depth ≤ bound → rule.condition.depth ≤ other →
      (((Analyzer.new other).after history').evaluate rule diagram threats).1 =
        (((Analyzer.new bound).after history).evaluate rule diagram threats).1) ∧
    (bound ≤ other →
      (((Analyzer.new bound).after history).evaluate rule diagram threats).1.Sublist
        (((Analyzer.new other).after history').evaluate rule diagram threats).1) := by
  simp only [evaluate_after]
  refine ⟨rule.condition.depth_truncate_le bound, fun enough => Rule.findings_truncate enough diagram threats,
    fun shallow enough => ?_, fun le => Rule.findings_sublist le diagram threats⟩
  have whole : rule.truncate bound = rule := by
    rw [Rule.truncate, Condition.truncate_of_depth_le shallow]
  have fits : (rule.truncate bound).condition.depth ≤ other := by rwa [whole]
  have same := Rule.findings_truncate fits diagram threats
  rwa [whole] at same

/-- A rule with a binding, a comparison and a list beside one another, and a list in that list. -/
def layeredRule : Rule :=
  ⟨"v1", "ThreatRule", ⟨"layered", "Layered", none, none, true⟩, "exposure", .process,
    .list .any [.binding "$.port = $PORT", .design "PORT == 22",
      .list .all [.design "$.public == true", .list .any [.design "PORT > 1024"]]]⟩

theorem evaluate_truncate_layered :
    (layeredRule.truncate 2).condition =
        .list .any [.binding "$.port = $PORT", .design "PORT == 22",
          .list .all [.design "$.public == true", .never]] ∧
      ∀ diagram threats,
        ((Analyzer.new 3).evaluate (layeredRule.truncate 2) diagram threats).1 =
            ((Analyzer.new 2).evaluate layeredRule diagram threats).1 ∧
          ((Analyzer.new 9).evaluate layeredRule diagram threats).1 =
            ((Analyzer.new 3).evaluate layeredRule diagram threats).1 ∧
          ((Analyzer.new 2).evaluate layeredRule diagram threats).1.Sublist
            ((Analyzer.new 3).evaluate layeredRule diagram threats).1 :=
  ⟨by decide, fun diagram threats =>
    ⟨(evaluate_truncate 2 3 layeredRule diagram threats [] []).2.1 (by decide),
      (evaluate_truncate 3 9 layeredRule diagram threats [] []).2.2.1 (by decide) (by decide),
      (evaluate_truncate 2 3 layeredRule diagram threats [] []).2.2.2 (by decide)⟩⟩

end Analyzer
end ThreatModel
