import ThreatModel.Proofs.Analysis.Stored
import ThreatModel.Proofs.Path.Enumeration

/-!
# The values that are compared

A recorded run tells what comparisons come to, but not of which values. Here the values are listed too. Main
statement: the answers in the record of a run are those of the values listed, and these are in normal form, as are the
values that bindings store: no list stands inside a list, and nothing undefined inside one.
-/

namespace ThreatModel

namespace Value

/-! ## Normal values -/

theorem normal_ofLiteral (literal : Literal) : (ofLiteral literal).Normal := by
  cases literal with
  | number value =>
    rw [ofLiteral]
    split
    · rfl
    · trivial
  | _ => rfl

theorem normal_walk (diagram : Diagram) {value : Value} (normal : value.Normal) (segments : List String) :
    (walk diagram value segments).Normal := by
  induction segments generalizing value with
  | nil => exact normal
  | cons segment rest ih => exact ih (normal_step diagram segment value)

theorem normal_ofPath (context : Context) (path : List String) : (ofPath context path).Normal := by
  cases path with
  | nil => trivial
  | cons first rest => exact normal_walk _ (normal_ofField _ first) rest

theorem keeps_normal (context : Context) : context.Keeps Normal where
  path := normal_ofPath context
  literal := normal_ofLiteral
  walk _ segments normal := normal_walk context.diagram normal segments

/-- Nothing undefined stands in a normal list, and no list. -/
theorem Normal.items {value : Value} (normal : value.Normal) {items : List Value} (holds : value = list items) :
    ∀ item ∈ items, item ≠ undefined ∧ ∀ inner, item ≠ list inner := by
  subst holds
  intro item member
  have fit : item.isItem = true := normal item member
  refine ⟨?_, fun inner => ?_⟩
  · rintro rfl
    cases fit
  · rintro rfl
    cases fit

end Value

/-! ## Comparisons of a run -/

/-- Two values and the operator by which they are compared. -/
structure Comparison where
  left : Value
  op : Comparator
  right : Value

namespace Comparison

def answer (comparison : Comparison) : Except EvalError Bool :=
  comparison.left.compare comparison.op comparison.right

/-- The comparison that a text asks for, if both of its operands have values. -/
def ofText? (scope : Scope) (context : Context) (block : BlockId) (text : String) : Option Comparison :=
  match Expression.parse text .design with
  | .ok (.comparison left op right) =>
    match left.resolve scope context block, right.resolve scope context block with
    | .ok left, .ok right => some ⟨left, op, right⟩
    | _, _ => none
  | _ => none

end Comparison

namespace Analyzer

section Listing

variable (maxDepth : Nat) (context : Context)

mutual
/-- The comparisons that are made for a condition in a list at `depth`. -/
def comparisons (block : BlockId) (depth : Nat) (scope : Scope) : Condition → List Comparison
  | .list _ children =>
    if maxDepth < depth + 1 then []
    else
      let (block, scope) := scope.enter
      comparisonsIn block (depth + 1) (bindAll context block scope children) children
  | .design expression => (Comparison.ofText? scope context block expression).toList
  | .binding _ => []

/-- The comparisons that are made for the conditions of a list at `depth`. -/
def comparisonsIn (block : BlockId) (depth : Nat) (scope : Scope) : List Condition → List Comparison
  | [] => []
  | child :: rest =>
    if child.isBinding then comparisonsIn block depth scope rest
    else
      comparisons block depth scope child ++
        comparisonsIn block depth (holds maxDepth context block depth scope child).2 rest
end

/-- The comparisons that are made to see whether an element satisfies a rule. -/
def elementComparisons (scope : Scope) (rule : Rule) : List Comparison :=
  let (block, scope) := scope.enter
  comparisons maxDepth context block 0 scope rule.condition

def elementsComparisons (diagram : Diagram) (rule : Rule) (scope : Scope) : List Element → List Comparison
  | [] => []
  | element :: rest =>
    elementComparisons maxDepth ⟨diagram, element⟩ scope rule ++
      elementsComparisons diagram rule (satisfies maxDepth scope rule ⟨diagram, element⟩).2 rest

end Listing

/-- The comparisons that are made to evaluate a rule, in order. -/
def ruleComparisons (analyzer : Analyzer) (rule : Rule) (diagram : Diagram) (threats : List Threat) :
    List Comparison :=
  match Threat.find? threats rule.threat with
  | none => []
  | some _ => elementsComparisons analyzer.maxDepth diagram rule analyzer.scope (diagram.ofCategory rule.category)

/-! ## The record has their answers -/

/-- The answer of a comparison of two values. -/
def Event.answer? : Event → Option (Except EvalError Bool)
  | .evaluated _ (.ok holds) => some (.ok holds)
  | .evaluated _ (.error .bothArrays) => some (.error .bothArrays)
  | _ => none

variable (maxDepth : Nat) (context : Context)

theorem answer?_evaluated (text : String) (comparison : Comparison) :
    Event.answer? (.evaluated text comparison.answer) = some comparison.answer := by
  unfold Comparison.answer Value.compare
  split <;> rfl

/-- An operand without a value is not compared, and its failure is not that of a comparison. -/
theorem answer?_unresolved {scope : Scope} {block : BlockId} {operand : Operand} {fault : EvalError}
    (failed : operand.resolve scope context block = .error fault) (text : String) :
    Event.answer? (.evaluated text (.error fault)) = none := by
  cases operand with
  | path segments => cases failed
  | literal content => cases failed
  | named name segments =>
    cases found : scope.resolve name block with
    | ok value =>
      rw [Operand.resolve, found] at failed
      cases failed
    | error fault' =>
      rw [Operand.resolve, found] at failed
      cases failed
      unfold Scope.resolve at found
      split at found
      · cases found
        rfl
      split at found
      · cases found
      · cases found
        rfl

theorem answers_evaluated (text : String) (result : Except EvalError Bool) :
    [Event.checked text true, .evaluated text result].filterMap Event.answer? =
      (Event.answer? (.evaluated text result)).toList := by
  show [Event.evaluated text result].filterMap Event.answer? = _
  cases shown : Event.answer? (.evaluated text result) <;> simp [shown]

theorem answers_recordDesign (scope : Scope) (block : BlockId) (text : String) :
    (recordDesign context scope block text).events.filterMap Event.answer? =
      (Comparison.ofText? scope context block text).toList.map Comparison.answer := by
  unfold recordDesign Comparison.ofText? Scope.accepts Scope.evaluate
  cases parsed : Expression.parse text .design with
  | error fault => rfl
  | ok expression =>
    cases expression with
    | binding name source => rfl
    | comparison left op right =>
      dsimp only
      rw [if_pos rfl, answers_evaluated]
      cases first : left.resolve scope context block with
      | error fault => exact congrArg Option.toList (answer?_unresolved context first text)
      | ok x =>
        cases second : right.resolve scope context block with
        | error fault => exact congrArg Option.toList (answer?_unresolved context second text)
        | ok y => exact congrArg Option.toList (answer?_evaluated text ⟨x, op, y⟩)

theorem answers_recordBindings (scope : Scope) (block : BlockId) (children : List Condition) :
    (recordBindings context block scope children).events.filterMap Event.answer? = [] := by
  induction children generalizing scope with
  | nil => rfl
  | cons child rest ih =>
    cases child with
    | list combinator inner => exact ih scope
    | design text => exact ih scope
    | binding text =>
      rw [recordBindings]
      cases scope.bindVariable text context block with
      | ok bound => exact ih bound
      | error fault => exact ih scope

mutual
theorem answers_recordCondition (block : BlockId) (depth : Nat) (scope : Scope) (condition : Condition) :
    (recordCondition maxDepth context block depth scope condition).events.filterMap Event.answer? =
      (comparisons maxDepth context block depth scope condition).map Comparison.answer := by
  cases condition with
  | binding text => rw [recordCondition, comparisons]; rfl
  | design text =>
    rw [recordCondition, comparisons]
    exact answers_recordDesign context scope block text
  | list combinator children =>
    rw [recordCondition, comparisons]
    split
    · rfl
    · simp only [List.filterMap_append, answers_recordBindings, List.nil_append, recordBindings_value]
      exact answers_recordConditions _ _ _ children

theorem answers_recordConditions (block : BlockId) (depth : Nat) (scope : Scope) (children : List Condition) :
    (recordConditions maxDepth context block depth scope children).events.filterMap Event.answer? =
      (comparisonsIn maxDepth context block depth scope children).map Comparison.answer := by
  cases children with
  | nil => rw [recordConditions, comparisonsIn]; rfl
  | cons child rest =>
    rw [recordConditions, comparisonsIn]
    split
    · exact answers_recordConditions block depth scope rest
    · simp only [List.filterMap_append, List.map_append, recordCondition_value]
      rw [answers_recordCondition block depth scope child, answers_recordConditions block depth _ rest]
end

theorem answers_recordElements (diagram : Diagram) (rule : Rule) (threat : Threat) (scope : Scope)
    (elements : List Element) :
    (recordElements maxDepth diagram rule threat scope elements).events.filterMap Event.answer? =
      (elementsComparisons maxDepth diagram rule scope elements).map Comparison.answer := by
  induction elements generalizing scope with
  | nil => rfl
  | cons e rest ih =>
    rw [recordElements, elementsComparisons, List.filterMap_append, List.map_append, ih, recordElement_value]
    congr 1
    exact answers_recordCondition maxDepth _ _ _ _ _

/-- The record of a rule has the answers of its comparisons, in order. -/
theorem answers_record (analyzer : Analyzer) (rule : Rule) (diagram : Diagram) (threats : List Threat) :
    (record analyzer rule diagram threats).events.filterMap Event.answer? =
      (ruleComparisons analyzer rule diagram threats).map Comparison.answer := by
  unfold record ruleComparisons
  cases Threat.find? threats rule.threat with
  | none => rfl
  | some threat => exact answers_recordElements analyzer.maxDepth diagram rule threat analyzer.scope _

/-! ## What is compared is good -/

variable {maxDepth : Nat} {context : Context} {good : Value → Prop} {scope : Scope}

/-- Both values of a comparison are good. -/
def Comparing (good : Value → Prop) (comparison : Comparison) : Prop :=
  good comparison.left ∧ good comparison.right

theorem comparing_ofText? (keeps : context.Keeps good) (all : scope.All good) {block : BlockId} {text : String}
    {comparison : Comparison} (asked : Comparison.ofText? scope context block text = some comparison) :
    Comparing good comparison := by
  unfold Comparison.ofText? at asked
  split at asked
  · split at asked
    · rename_i first second
      cases asked
      exact ⟨good_of_resolve keeps all first, good_of_resolve keeps all second⟩
    · cases asked
  · cases asked

theorem all_bindAll (keeps : context.Keeps good) (all : scope.All good) (block : BlockId)
    (children : List Condition) : (bindAll context block scope children).All good := by
  rw [← recordBindings_value]
  exact (recordBindings_stores keeps all block children).2

mutual
theorem comparing_comparisons (keeps : context.Keeps good) {scope : Scope} (all : scope.All good)
    (block : BlockId) (depth : Nat) (condition : Condition) :
    ∀ comparison ∈ comparisons maxDepth context block depth scope condition, Comparing good comparison := by
  cases condition with
  | binding text =>
    rw [comparisons]
    exact List.forall_mem_nil _
  | design text =>
    rw [comparisons]
    intro comparison member
    exact comparing_ofText? keeps all (Option.mem_toList.mp member)
  | list combinator children =>
    rw [comparisons]
    split
    · exact List.forall_mem_nil _
    · exact comparing_comparisonsIn keeps (all_bindAll keeps all.enter scope.enter.1 children) scope.enter.1
        (depth + 1) children

theorem comparing_comparisonsIn (keeps : context.Keeps good) {scope : Scope} (all : scope.All good)
    (block : BlockId) (depth : Nat) (children : List Condition) :
    ∀ comparison ∈ comparisonsIn maxDepth context block depth scope children, Comparing good comparison := by
  cases children with
  | nil =>
    rw [comparisonsIn]
    exact List.forall_mem_nil _
  | cons child rest =>
    rw [comparisonsIn]
    split
    · exact comparing_comparisonsIn keeps all block depth rest
    · have after : (holds maxDepth context block depth scope child).2.All good :=
        all.congr (frames_holds maxDepth context block depth scope child)
      exact List.forall_mem_append.mpr ⟨comparing_comparisons keeps all block depth child,
        comparing_comparisonsIn keeps after block depth rest⟩
end

theorem comparing_elementsComparisons {diagram : Diagram} (keeps : ∀ e, Context.Keeps ⟨diagram, e⟩ good)
    (idle : scope.frames = []) (rule : Rule) (elements : List Element) :
    ∀ comparison ∈ elementsComparisons maxDepth diagram rule scope elements, Comparing good comparison := by
  induction elements generalizing scope with
  | nil => exact List.forall_mem_nil _
  | cons e rest ih =>
    have closed := (frames_satisfies maxDepth ⟨diagram, e⟩ scope rule).trans idle
    rw [elementsComparisons]
    exact List.forall_mem_append.mpr
      ⟨comparing_comparisons (keeps e) (Scope.all_of_idle idle).enter scope.enter.1 0 rule.condition, ih closed⟩

/-! ## Runs -/

section Runs

variable {analyzer : Analyzer} {diagram : Diagram} (keeps : ∀ e, Context.Keeps ⟨diagram, e⟩ good)
  (idle : analyzer.scope.frames = [])

include keeps idle

theorem record_stores (rule : Rule) (threats : List Threat) :
    ∀ event ∈ (record analyzer rule diagram threats).events, event.Stores good := by
  intro event member
  rw [record] at member
  split at member
  · cases member
  · have each : ∀ e ∈ diagram.ofCategory rule.category, Context.Keeps ⟨diagram, e⟩ ((fun _ => good) e) :=
      fun e _ => keeps e
    obtain ⟨-, -, stores⟩ := recordElements_stores analyzer.maxDepth each idle rule _ event member
    exact stores

theorem comparing_ruleComparisons (rule : Rule) (threats : List Threat) :
    ∀ comparison ∈ ruleComparisons analyzer rule diagram threats, Comparing good comparison := by
  rw [ruleComparisons]
  split
  · exact List.forall_mem_nil _
  · exact comparing_elementsComparisons keeps idle rule _

end Runs

/-- Data is normal, and what a path leads to, whatever it starts from. So in a run of an analyzer, whatever it has
evaluated before, all values that bindings store are normal and all values that are compared, of which the record has
the answers; and comparing meets no list inside a list and nothing undefined inside one. -/
theorem operands_normal :
    (∀ data, (Value.ofJson data).Normal) ∧
    (∀ diagram value segments, segments ≠ [] → (Value.walk diagram value segments).Normal) ∧
    ∀ maxDepth history rule diagram threats,
      let analyzer := (Analyzer.new maxDepth).after history
      let run := record analyzer rule diagram threats
      let compared := ruleComparisons analyzer rule diagram threats
      run.value = analyzer.evaluate rule diagram threats ∧
      (∀ event ∈ run.events, event.Stores Value.Normal) ∧
      run.events.filterMap Event.answer? = compared.map Comparison.answer ∧
      ∀ comparison ∈ compared, ∀ value ∈ [comparison.left, comparison.right], value.Normal ∧
        ∀ items, value = .list items → ∀ item ∈ items, item ≠ .undefined ∧ ∀ inner, item ≠ .list inner := by
  refine ⟨Value.normal_ofJson, ?_, ?_⟩
  · intro diagram value segments some
    obtain ⟨segment, rest, rfl⟩ := List.exists_cons_of_ne_nil some
    exact Value.normal_walk diagram (Value.normal_step diagram segment value) rest
  · intro maxDepth history rule diagram threats analyzer run compared
    obtain ⟨idle, -⟩ : analyzer.scope.frames = [] ∧ analyzer.maxDepth = maxDepth := after_idle rfl history
    have keeps (e : Element) := Value.keeps_normal ⟨diagram, e⟩
    refine ⟨record_value .., record_stores keeps idle rule threats, answers_record .., ?_⟩
    intro comparison member value side
    have both := comparing_ruleComparisons keeps idle rule threats comparison member
    have normal : value.Normal := by
      rcases List.mem_pair.mp side with rfl | rfl
      · exact both.1
      · exact both.2
    exact ⟨normal, fun items => normal.items⟩

/-- A list inside a list, something undefined and raw data that is an array. -/
def tangled : Value := .list [.list [.element "e"], .undefined, .json (.array [.int 1])]

def loopThreats : List Threat := [⟨"exposure", "Exposure", .high, "", "", {}⟩]

/-- What is tangled is no normal value, but where a path leads from it is; and a run compares a list of ids. -/
theorem operands_normal_tangled :
    ["attached", "dataflows"] ≠ [] ∧
      ¬ tangled.Normal ∧
      (tangled.walk loopDiagram ["attached", "dataflows"]).Normal ∧
      tangled.walk loopDiagram ["attached", "dataflows"] = .list [.element "d"] ∧
      ((ruleComparisons (.new 3) loopRule loopDiagram loopThreats).map fun comparison =>
        comparison.left.same (.list [.json (.text "d")]) && comparison.right.same (.json (.text "d"))) = [true] ∧
      ∀ comparison ∈ ruleComparisons (.new 3) loopRule loopDiagram loopThreats, comparison.left.Normal := by
  obtain ⟨-, paths, runs⟩ := operands_normal
  obtain ⟨-, -, -, normal⟩ := runs 3 [] loopRule loopDiagram loopThreats
  refine ⟨by decide, fun normal => ?_, paths _ _ _ (by decide), rfl, by decide +kernel, ?_⟩
  · exact absurd (normal (.list [.element "e"]) List.mem_cons_self) (by decide)
  · intro comparison member
    exact (normal comparison member _ List.mem_cons_self).1

end Analyzer
end ThreatModel
