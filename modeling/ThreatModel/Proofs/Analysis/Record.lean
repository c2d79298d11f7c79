import ThreatModel.Analysis

/-!
# What evaluation meets

A comparison that cannot be evaluated does not hold and a binding that fails changes nothing, so what an
evaluation comes to does not tell whether anything went wrong. Here evaluation keeps a record of what it
meets on the way. Main statement: it comes to the same with the record as without.
-/

namespace ThreatModel.Analyzer

/-- What an evaluation meets in the tree of a condition. -/
inductive Event
  /-- A list that would be opened at a depth is nested too deep and is passed over. -/
  | cut (depth : Nat)
  /-- A binding is made, or fails. -/
  | bound (expression : String) (result : Except EvalError Scope)
  /-- A text is checked to be a comparison. -/
  | checked (expression : String) (accepted : Bool)
  /-- A comparison is evaluated. -/
  | evaluated (expression : String) (result : Except EvalError Bool)

/-- A value and what was met on the way to it. -/
structure Recorded (α : Type) where
  value : α
  events : List Event

variable (maxDepth : Nat) (context : Context)

/-! ## Evaluation with a record -/

/-- Makes the bindings of a list. -/
def recordBindings (block : BlockId) (scope : Scope) : List Condition → Recorded Scope
  | [] => ⟨scope, []⟩
  | .binding expression :: rest =>
    match scope.bindVariable expression context block with
    | .ok bound =>
      let others := recordBindings block bound rest
      ⟨others.value, .bound expression (.ok bound) :: others.events⟩
    | .error fault =>
      let others := recordBindings block scope rest
      ⟨others.value, .bound expression (.error fault) :: others.events⟩
  | _ :: rest => recordBindings block scope rest

/-- Looks at a comparison, which is evaluated only if its text is one. -/
def recordDesign (scope : Scope) (block : BlockId) (expression : String) : Recorded Bool :=
  if Scope.accepts expression then
    let result := scope.evaluate expression context block
    let holds := match result with
      | .ok holds => holds
      | .error _ => false
    ⟨holds, [.checked expression true, .evaluated expression result]⟩
  else ⟨false, [.checked expression false]⟩

mutual
/-- Looks at a condition in a list at `depth`. -/
def recordCondition (block : BlockId) (depth : Nat) (scope : Scope) : Condition → Recorded (Bool × Scope)
  | .list combinator children =>
    if maxDepth < depth + 1 then ⟨(false, scope), [.cut (depth + 1)]⟩
    else
      let (block, scope) := scope.enter
      let inner := recordBindings context block scope children
      let outcomes := recordConditions block (depth + 1) inner.value children
      ⟨(combine combinator outcomes.value.1, outcomes.value.2.leave), inner.events ++ outcomes.events⟩
  | .design expression =>
    let outcome := recordDesign context scope block expression
    ⟨(outcome.value, scope), outcome.events⟩
  | .binding _ => ⟨(false, scope), []⟩

/-- Looks at the conditions of a list at `depth`. -/
def recordConditions (block : BlockId) (depth : Nat) (scope : Scope) :
    List Condition → Recorded (List Bool × Scope)
  | [] => ⟨([], scope), []⟩
  | child :: rest =>
    if child.isBinding then recordConditions block depth scope rest
    else
      let first := recordCondition block depth scope child
      let others := recordConditions block depth first.value.2 rest
      ⟨(first.value.1 :: others.value.1, others.value.2), first.events ++ others.events⟩
end

/-- Looks at whether an element satisfies a rule. -/
def recordElement (scope : Scope) (rule : Rule) : Recorded (Bool × Scope) :=
  let (block, scope) := scope.enter
  let outcome := recordCondition maxDepth context block 0 scope rule.condition
  ⟨(outcome.value.1, outcome.value.2.leave), outcome.events⟩

/-- Looks at some elements one after the other. -/
def recordElements (diagram : Diagram) (rule : Rule) (threat : Threat) (scope : Scope) :
    List Element → Recorded (List Finding × Scope)
  | [] => ⟨([], scope), []⟩
  | element :: rest =>
    let first := recordElement maxDepth ⟨diagram, element⟩ scope rule
    let others := recordElements diagram rule threat first.value.2 rest
    ⟨(if first.value.1 then ⟨rule.category, element.shape, rule.id, threat.id⟩ :: others.value.1
      else others.value.1, others.value.2), first.events ++ others.events⟩

/-- Evaluates a rule. -/
def record (analyzer : Analyzer) (rule : Rule) (diagram : Diagram) (threats : List Threat) :
    Recorded (List Finding × Analyzer) :=
  match Threat.find? threats rule.threat with
  | none => ⟨([], analyzer), []⟩
  | some threat =>
    let found := recordElements analyzer.maxDepth diagram rule threat analyzer.scope
      (diagram.ofCategory rule.category)
    ⟨(found.value.1, { analyzer with scope := found.value.2.clear }), found.events⟩

/-! ## The record changes nothing -/

@[simp] theorem recordBindings_value (block : BlockId) (scope : Scope) (children : List Condition) :
    (recordBindings context block scope children).value = bindAll context block scope children := by
  induction children generalizing scope with
  | nil => rfl
  | cons child rest ih =>
    cases child with
    | list combinator children => exact ih scope
    | design expression => exact ih scope
    | binding expression =>
      simp only [recordBindings, bindAll]
      cases scope.bindVariable expression context block with
      | ok bound => exact ih bound
      | error fault => exact ih scope

@[simp] theorem recordDesign_value (scope : Scope) (block : BlockId) (expression : String) :
    (recordDesign context scope block expression).value = designHolds scope context block expression := by
  unfold recordDesign designHolds
  by_cases accepted : Scope.accepts expression = true
  · cases scope.evaluate expression context block with
    | ok holds => simp [accepted]
    | error fault => simp [accepted]
  · simp [accepted]

mutual
@[simp] theorem recordCondition_value (block : BlockId) (depth : Nat) (scope : Scope) (condition : Condition) :
    (recordCondition maxDepth context block depth scope condition).value =
      holds maxDepth context block depth scope condition := by
  cases condition with
  | list combinator children =>
    rw [recordCondition, holds]
    split
    · rfl
    · simp only [recordConditions_value, recordBindings_value]
  | design expression => simp [recordCondition, holds]
  | binding expression => rw [recordCondition, holds]

@[simp] theorem recordConditions_value (block : BlockId) (depth : Nat) (scope : Scope)
    (children : List Condition) :
    (recordConditions maxDepth context block depth scope children).value =
      outcomesOf maxDepth context block depth scope children := by
  cases children with
  | nil => rw [recordConditions, outcomesOf]
  | cons child rest =>
    rw [recordConditions, outcomesOf]
    split
    · exact recordConditions_value block depth scope rest
    · simp only [recordCondition_value block depth scope child, recordConditions_value block depth _ rest]
end

@[simp] theorem recordElement_value (scope : Scope) (rule : Rule) :
    (recordElement maxDepth context scope rule).value = satisfies maxDepth scope rule context := by
  simp [recordElement, satisfies]

@[simp] theorem recordElements_value (diagram : Diagram) (rule : Rule) (threat : Threat) (scope : Scope)
    (elements : List Element) :
    (recordElements maxDepth diagram rule threat scope elements).value =
      findingsOn maxDepth diagram rule threat scope elements := by
  induction elements generalizing scope with
  | nil => rfl
  | cons element rest ih => simp [recordElements, findingsOn, ih]

theorem record_value (analyzer : Analyzer) (rule : Rule) (diagram : Diagram) (threats : List Threat) :
    (record analyzer rule diagram threats).value = analyzer.evaluate rule diagram threats := by
  unfold record evaluate
  cases Threat.find? threats rule.threat with
  | none => rfl
  | some threat => simp

end ThreatModel.Analyzer
