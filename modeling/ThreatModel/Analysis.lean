import ThreatModel.Evaluation
import ThreatModel.Rule
import ThreatModel.Threat

/-!
# Analysis

A rule is evaluated against every element of its category, and each element that satisfies its
condition gives a finding. Bindings of a list are made before its conditions are looked at, and all
conditions are looked at before they are combined. A list that is nested too deep never holds, nor does
a comparison that cannot be evaluated.
-/

namespace ThreatModel

/-- A match of a rule on an element. -/
structure Finding where
  category : Category
  /-- The shape of the element. -/
  shape : String
  rule : String
  threat : String
  deriving DecidableEq, Repr

namespace Finding

def toJson (finding : Finding) : Json :=
  .object [("element", .text finding.category.name), ("shape", .text finding.shape),
    ("rule", .text finding.rule), ("threat", .text finding.threat)]

structure Slots where
  category : Option Category := none
  shape : Option String := none
  rule : Option String := none
  threat : Option String := none

def step (format : Format) (slots : Slots) (field : String) (value : Node) : Except Fault Slots :=
  match field with
  | "element" => do
    return { slots with
      category := ← Node.once field slots.category (value.choice format Category.ofName?) }
  | "shape" => do return { slots with shape := ← Node.once field slots.shape value.text }
  | "rule" => do return { slots with rule := ← Node.once field slots.rule value.text }
  | "threat" => do return { slots with threat := ← Node.once field slots.threat value.text }
  | _ => do
    value.ignore
    return slots

def finish (slots : Slots) : Except Fault Finding := do
  let category ← Node.required "element" slots.category
  let shape ← Node.required "shape" slots.shape
  let rule ← Node.required "rule" slots.rule
  let threat ← Node.required "threat" slots.threat
  return ⟨category, shape, rule, threat⟩

/-- Reads a finding; fields that it does not have are ignored. -/
def ofNode (format : Format) (node : Node) : Except Fault Finding :=
  node.record format ["element", "shape", "rule", "threat"] (step format) {} finish

end Finding

/-- An analyzer: the blocks of bindings that its evaluations share, and the bound on nesting. -/
structure Analyzer where
  scope : Scope
  maxDepth : Nat

namespace Analyzer

/-- The nesting that rules are usually allowed. -/
def defaultMaxDepth : Nat := 10

/-- An analyzer that has evaluated nothing yet. -/
def new (maxDepth : Nat) : Analyzer := ⟨.empty, maxDepth⟩

/-- Makes the bindings of a list in its block, in order. One that fails leaves no trace. -/
def bindAll (context : Context) (block : BlockId) (scope : Scope) : List Condition → Scope
  | [] => scope
  | .binding expression :: rest =>
    match scope.bindVariable expression context block with
    | .ok bound => bindAll context block bound rest
    | .error _ => bindAll context block scope rest
  | _ :: rest => bindAll context block scope rest

/-- Whether a comparison holds; one that cannot be evaluated does not. -/
def designHolds (scope : Scope) (context : Context) (block : BlockId) (expression : String) : Bool :=
  Scope.accepts expression &&
    match scope.evaluate expression context block with
    | .ok holds => holds
    | .error _ => false

/-- How a list combines what its conditions came to. -/
def combine (combinator : Combinator) (outcomes : List Bool) : Bool :=
  match combinator with
  | .all => outcomes.all id
  | .any => outcomes.any id

mutual
/-- Whether a condition in a list at `depth`, whose block is `block`, holds, and the scope after. A list has
a block of its own. -/
def holds (maxDepth : Nat) (context : Context) (block : BlockId) (depth : Nat) (scope : Scope) :
    Condition → Bool × Scope
  | .list combinator children =>
    if maxDepth < depth + 1 then (false, scope)
    else
      let (block, scope) := scope.enter
      let scope := bindAll context block scope children
      let (outcomes, scope) := outcomesOf maxDepth context block (depth + 1) scope children
      (combine combinator outcomes, scope.leave)
  | .design expression => (designHolds scope context block expression, scope)
  | .binding _ => (false, scope)

/-- What the conditions of a list at `depth` come to, bindings left out. -/
def outcomesOf (maxDepth : Nat) (context : Context) (block : BlockId) (depth : Nat) (scope : Scope) :
    List Condition → List Bool × Scope
  | [] => ([], scope)
  | child :: rest =>
    if child.isBinding then outcomesOf maxDepth context block depth scope rest
    else
      let (outcome, scope) := holds maxDepth context block depth scope child
      let (outcomes, scope) := outcomesOf maxDepth context block depth scope rest
      (outcome :: outcomes, scope)
end

/-- Whether an element satisfies the condition of a rule, and the scope after. The element has a block
around all others. -/
def satisfies (maxDepth : Nat) (scope : Scope) (rule : Rule) (context : Context) : Bool × Scope :=
  let (block, scope) := scope.enter
  let (outcome, scope) := holds maxDepth context block 0 scope rule.condition
  (outcome, scope.leave)

/-- The findings of a rule on some elements, and the scope after. -/
def findingsOn (maxDepth : Nat) (diagram : Diagram) (rule : Rule) (threat : Threat) (scope : Scope) :
    List Element → List Finding × Scope
  | [] => ([], scope)
  | element :: rest =>
    let (outcome, scope) := satisfies maxDepth scope rule ⟨diagram, element⟩
    let (findings, scope) := findingsOn maxDepth diagram rule threat scope rest
    (if outcome then ⟨rule.category, element.shape, rule.id, threat.id⟩ :: findings else findings, scope)

/-- Evaluates a rule: its findings and the analyzer after. A rule whose threat is unknown is passed
over. -/
def evaluate (analyzer : Analyzer) (rule : Rule) (diagram : Diagram) (threats : List Threat) :
    List Finding × Analyzer :=
  match Threat.find? threats rule.threat with
  | none => ([], analyzer)
  | some threat =>
    let (findings, scope) :=
      findingsOn analyzer.maxDepth diagram rule threat analyzer.scope (diagram.ofCategory rule.category)
    (findings, { analyzer with scope := scope.clear })

end Analyzer
end ThreatModel
