import ThreatModel.Expression.Parser
import ThreatModel.Rule.Condition
import ThreatModel.Validation.Diagnostic

/-!
# Checking conditions

A walk over the tree of a condition that knows which names are bound at each place, but no values. As in
evaluation, the bindings of a list come before its conditions, and a list that is nested too deep is not
looked into.
-/

namespace ThreatModel.Validation

/-- The warning for an operand whose variable is not bound. -/
def unboundIn (bound : List String) (place : Place) (operand : Operand) : List Diagnostic :=
  match operand.variableName? with
  | some name => if name ∈ bound then [] else [⟨place, .unbound name⟩]
  | none => []

/-- The diagnostics of a comparison. -/
def designProblems (bound : List String) (place : Place) (expression : String) : List Diagnostic :=
  match Expression.parse expression .design with
  | .ok (.comparison left _ right) => unboundIn bound place left ++ unboundIn bound place right
  | .ok (.binding _ _) => []
  | .error fault => [⟨place, .invalidCondition expression fault⟩]

/-- The diagnostics of a binding, and the names that are bound after it. -/
def bindingProblems (bound : List String) (place : Place) (expression : String) :
    List Diagnostic × List String :=
  match Expression.parse expression .binding with
  | .ok (.binding name source) => (unboundIn bound place source, name :: bound)
  | .ok (.comparison _ _ _) => ([], bound)
  | .error fault => ([⟨place, .invalidBinding expression fault⟩], bound)

/-- The diagnostics of the bindings of a list, the first condition being at `index`, and the names that are
bound after them. -/
def bindingsProblems (place : Place) (bound : List String) (index : Nat) :
    List Condition → List Diagnostic × List String
  | [] => ([], bound)
  | .binding expression :: rest =>
    let (problems, bound) := bindingProblems bound (place ++ [.index index, .key "variable"]) expression
    let (more, bound) := bindingsProblems place bound (index + 1) rest
    (problems ++ more, bound)
  | _ :: rest => bindingsProblems place bound (index + 1) rest

/-- The diagnostic of a list that has children, none of which is a condition. -/
def barrenProblems (place : Place) (children : List Condition) : List Diagnostic :=
  if !children.isEmpty && children.all Condition.isBinding then [⟨place, .noConditions⟩] else []

mutual
/-- The diagnostics of a condition in a list at `depth`; bindings are looked at on their own. -/
def childProblems (maxDepth : Nat) (place : Place) (depth : Nat) (bound : List String) :
    Condition → List Diagnostic
  | .list combinator children =>
    let place := place ++ [.key combinator.key]
    if maxDepth < depth + 1 then [⟨place, .tooDeep (depth + 1) maxDepth⟩]
    else
      let (bindings, bound) := bindingsProblems place bound 0 children
      (if children.isEmpty then [⟨place, .emptyList⟩] else []) ++ bindings ++
        childrenProblems maxDepth place (depth + 1) bound 0 children ++ barrenProblems place children
  | .design expression => designProblems bound (place ++ [.key "design"]) expression
  | .binding _ => []

/-- The diagnostics of the conditions of a list at `depth`, the first being at `index`. -/
def childrenProblems (maxDepth : Nat) (place : Place) (depth : Nat) (bound : List String) (index : Nat) :
    List Condition → List Diagnostic
  | [] => []
  | child :: rest =>
    childProblems maxDepth (place ++ [.index index]) depth bound child ++
      childrenProblems maxDepth place depth bound (index + 1) rest
end

/-- The diagnostics of the condition of a rule. -/
def conditionProblems (maxDepth : Nat) : Condition → List Diagnostic
  | .binding _ => [⟨[.key "design"], .loneBinding⟩]
  | condition => childProblems maxDepth [] 0 [] condition

end ThreatModel.Validation
