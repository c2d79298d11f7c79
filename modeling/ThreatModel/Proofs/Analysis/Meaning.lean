import ThreatModel.Analysis
import ThreatModel.Proofs.Analysis.Valuation

/-!
# What conditions mean

The meaning of a condition over a valuation: what its bindings add to the valuation, and when it holds.
The findings of a rule follow from it. There are no blocks here and no state.
-/

namespace ThreatModel

/-! ## Bindings -/

namespace Valuation

/-- The values of names after the binding of a text. It sets its name if the text is a binding whose
source has a value, and changes nothing otherwise. -/
def bind (context : Context) (names : Valuation) (expression : String) : Valuation :=
  match Expression.parse expression .binding with
  | .ok (.binding name source) =>
    match source.value? context names with
    | some value => names.set name value
    | none => names
  | _ => names

/-- The values of names after the bindings of a list, in order. -/
def bindAll (context : Context) (names : Valuation) : List Condition → Valuation
  | [] => names
  | .binding expression :: rest => bindAll context (names.bind context expression) rest
  | _ :: rest => bindAll context names rest

end Valuation

/-! ## Conditions -/

/-- A comparison holds if its text is one, its operands have values and the values compare so. -/
def DesignHolds (context : Context) (names : Valuation) (expression : String) : Prop :=
  ∃ left op right, Expression.parse expression .design = .ok (.comparison left op right) ∧
    ∃ a b, left.value? context names = some a ∧ right.value? context names = some b ∧
      a.compare op b = .ok true

theorem designHolds_iff {context : Context} {names : Valuation} {expression : String}
    {left right : Operand} {op : Comparator}
    (parsed : Expression.parse expression .design = .ok (.comparison left op right)) :
    DesignHolds context names expression ↔
      ∃ a b, left.value? context names = some a ∧ right.value? context names = some b ∧
        a.compare op b = .ok true := by
  constructor
  · rintro ⟨left', op', right', parsed', holds⟩
    rw [parsed] at parsed'
    cases parsed'
    exact holds
  · intro holds
    exact ⟨left, op, right, parsed, holds⟩

instance (context : Context) (names : Valuation) (expression : String) :
    Decidable (DesignHolds context names expression) :=
  match parsed : Expression.parse expression .design with
  | .ok (.comparison left op right) =>
    match leftValue : left.value? context names, rightValue : right.value? context names with
    | some a, some b =>
      match compared : a.compare op b with
      | .ok true => .isTrue ((designHolds_iff parsed).mpr ⟨a, b, leftValue, rightValue, compared⟩)
      | .ok false | .error _ => .isFalse (by simp [designHolds_iff parsed, *])
    | none, _ | _, none => .isFalse (by simp [designHolds_iff parsed, *])
  | .ok (.binding _ _) | .error _ => .isFalse (by simp [DesignHolds, parsed])

/-- When a condition holds whose outermost list, if it is one, is opened at `depth`. A list that is nested
too deep does not hold. Otherwise all or any of its conditions hold with the bindings of the list made;
a binding is no condition and never holds. -/
def Condition.Holds (maxDepth : Nat) (context : Context) (names : Valuation) (depth : Nat) :
    Condition → Prop
  | .list .all children => depth ≤ maxDepth ∧ ∀ child ∈ children, child.isBinding = false →
      child.Holds maxDepth context (names.bindAll context children) (depth + 1)
  | .list .any children => depth ≤ maxDepth ∧ ∃ child, ∃ _ : child ∈ children, child.isBinding = false ∧
      child.Holds maxDepth context (names.bindAll context children) (depth + 1)
  | .design expression => DesignHolds context names expression
  | .binding _ => False

namespace Condition

/-- What holds of a condition if it holds of every list of such conditions, of comparisons and of
bindings. -/
@[elab_as_elim]
theorem induction {motive : Condition → Prop}
    (list : ∀ combinator children, (∀ child ∈ children, motive child) → motive (.list combinator children))
    (design : ∀ expression, motive (.design expression))
    (binding : ∀ expression, motive (.binding expression)) (condition : Condition) : motive condition := by
  match condition with
  | .list combinator children =>
    exact list combinator children fun child _ => induction list design binding child
  | .design expression => exact design expression
  | .binding expression => exact binding expression

variable {maxDepth : Nat} {context : Context} {names : Valuation} {depth : Nat}

theorem holds_all {children : List Condition} :
    (Condition.list .all children).Holds maxDepth context names depth ↔
      depth ≤ maxDepth ∧ ∀ child ∈ children, child.isBinding = false →
        child.Holds maxDepth context (names.bindAll context children) (depth + 1) := by
  rw [Holds]

theorem holds_any {children : List Condition} :
    (Condition.list .any children).Holds maxDepth context names depth ↔
      depth ≤ maxDepth ∧ ∃ child ∈ children, child.isBinding = false ∧
        child.Holds maxDepth context (names.bindAll context children) (depth + 1) := by
  rw [Holds]
  simp only [exists_prop]

@[simp] theorem holds_design {expression : String} :
    (Condition.design expression).Holds maxDepth context names depth ↔
      DesignHolds context names expression := by
  rw [Holds]

@[simp] theorem not_holds_binding {expression : String} :
    ¬ (Condition.binding expression).Holds maxDepth context names depth := by
  rw [Holds]
  exact id

/-- A list that is nested too deep does not hold. -/
theorem not_holds_deep {combinator : Combinator} {children : List Condition} (deep : maxDepth < depth) :
    ¬ (Condition.list combinator children).Holds maxDepth context names depth := by
  intro holds
  cases combinator with
  | all =>
    have := (holds_all.mp holds).1
    omega
  | any =>
    have := (holds_any.mp holds).1
    omega

/-- A condition that never holds: any of no conditions. -/
def never : Condition := .list .any []

@[simp] theorem not_holds_never : ¬ never.Holds maxDepth context names depth := by
  simp [never, holds_any]

/-- Whether a condition holds, found out from its meaning. -/
def decideHolds (maxDepth : Nat) (context : Context) (names : Valuation) (depth : Nat) :
    (condition : Condition) → Decidable (condition.Holds maxDepth context names depth)
  | .list combinator children =>
    let childHolds (child : Condition) := child.Holds maxDepth context (names.bindAll context children) (depth + 1)
    have decided : DecidablePred fun child : { child // child ∈ children } => childHolds child :=
      fun ⟨child, _⟩ => child.decideHolds maxDepth context (names.bindAll context children) (depth + 1)
    let counts (child : { child // child ∈ children }) : Bool := decide (childHolds child)
    match combinator with
    | .all => decidable_of_iff
        (depth ≤ maxDepth ∧ (children.attach.all fun child => child.1.isBinding || counts child) = true)
        (by simp [holds_all, childHolds, counts, Decidable.or_iff_not_imp_left])
    | .any => decidable_of_iff
        (depth ≤ maxDepth ∧ (children.attach.any fun child => !child.1.isBinding && counts child) = true)
        (by simp [holds_any, childHolds, counts, and_left_comm])
  | .design expression => decidable_of_iff (DesignHolds context names expression) (by simp)
  | .binding _ => .isFalse not_holds_binding

instance (maxDepth : Nat) (context : Context) (names : Valuation) (depth : Nat) (condition : Condition) :
    Decidable (condition.Holds maxDepth context names depth) :=
  condition.decideHolds maxDepth context names depth

end Condition

/-! ## Rules -/

namespace Rule

/-- When an element satisfies a rule: nothing is bound outside its condition, whose outermost list is at
depth 1. -/
def Matches (maxDepth : Nat) (rule : Rule) (context : Context) : Prop :=
  rule.condition.Holds maxDepth context .empty 1

instance (maxDepth : Nat) (rule : Rule) (context : Context) : Decidable (rule.Matches maxDepth context) :=
  inferInstanceAs (Decidable (rule.condition.Holds maxDepth context .empty 1))

/-- The findings of a rule: if its threat is known, one for each element of its category that satisfies
it, in the order of the diagram. -/
def findings (maxDepth : Nat) (rule : Rule) (diagram : Diagram) (threats : List Threat) : List Finding :=
  if rule.threat ∈ threats.map Threat.id then
    (diagram.elements.filter fun element =>
      element.category = rule.category ∧ rule.Matches maxDepth ⟨diagram, element⟩).map fun element =>
        ⟨rule.category, element.shape, rule.id, rule.threat⟩
  else []

end Rule
end ThreatModel
