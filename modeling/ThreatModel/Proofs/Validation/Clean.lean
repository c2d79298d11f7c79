import ThreatModel.Validation
import ThreatModel.Proofs.Analysis.Record
import ThreatModel.Proofs.Analysis.Refinement
import ThreatModel.Proofs.Expression.Parser

/-!
# Rules without diagnostics

Validation walks the tree of a condition with the names that are bound, evaluation with blocks of values.
Main statement: a rule without diagnostics is evaluated without a fault; its threat is found, no list is
nested too deep, every binding is made, and a comparison fails only if both of its sides are lists.
-/

namespace ThreatModel

namespace Analyzer

/-- What evaluation meets without a fault. That both sides of a comparison are lists depends on the
diagram and is none. -/
def Event.Clean : Event → Prop
  | .cut _ => False
  | .bound _ result => ∃ after, result = .ok after
  | .checked _ accepted => accepted = true
  | .evaluated _ result => result = .error .bothArrays ∨ ∃ holds, result = .ok holds

end Analyzer

namespace Validation
open Analyzer

/-- Every name that validation takes to be bound has a value. -/
def Covers (bound : List String) (names : Valuation) : Prop :=
  ∀ name ∈ bound, ∃ value, names name = some value

variable (context : Context) {scope : Scope} {block : BlockId} {bound : List String} {place : Place}

/-! ## Operands -/

theorem Covers.set {names : Valuation} (covers : Covers bound names) (name : String) (value : Value) :
    Covers (name :: bound) (names.set name value) := by
  intro other member
  by_cases same : other = name
  · exact ⟨value, by simp [Valuation.set, same]⟩
  · obtain ⟨found, known⟩ := covers other ((List.mem_cons.mp member).resolve_left same)
    exact ⟨found, by simp [Valuation.set, same, known]⟩

/-- An operand without a warning has a value. -/
theorem value_of_unboundIn {names : Valuation} (covers : Covers bound names) {operand : Operand}
    (none : unboundIn bound place operand = []) : ∃ value, operand.value? context names = some value := by
  cases operand with
  | path segments => exact ⟨_, rfl⟩
  | literal content => exact ⟨_, rfl⟩
  | named name segments =>
    have member : name ∈ bound := by
      by_contra unknown
      simp [unboundIn, Operand.variableName?, unknown] at none
    obtain ⟨value, known⟩ := covers name member
    exact ⟨value.walk context.diagram segments, by simp [Operand.value?, known]⟩

/-- Two values compare, unless both are lists. -/
theorem compare_clean (left : Value) (op : Comparator) (right : Value) :
    left.compare op right = .error .bothArrays ∨ ∃ holds, left.compare op right = .ok holds := by
  unfold Value.compare
  split
  · exact .inl rfl
  all_goals exact .inr ⟨_, rfl⟩

/-! ## Comparisons and bindings -/

theorem recordDesign_clean (current : scope.current? = some block) (covers : Covers bound scope.valuation)
    {expression : String} (none : designProblems bound place expression = []) :
    ∀ event ∈ (recordDesign context scope block expression).events, event.Clean := by
  unfold designProblems at none
  cases parsed : Expression.parse expression .design with
  | error fault => simp [parsed] at none
  | ok found =>
    obtain ⟨left, op, right, rfl⟩ := Expression.comparison_of_parse parsed
    simp only [parsed, List.append_eq_nil_iff] at none
    obtain ⟨a, leftValue⟩ := value_of_unboundIn context covers none.1
    obtain ⟨b, rightValue⟩ := value_of_unboundIn context covers none.2
    have evaluated : scope.evaluate expression context block = a.compare op b := by
      simp only [Scope.evaluate, parsed, (Scope.resolve_operand_iff current context left a).mpr leftValue,
        (Scope.resolve_operand_iff current context right b).mpr rightValue]
      rfl
    have accepted : Scope.accepts expression = true := by simp [Scope.accepts, parsed]
    simp only [recordDesign, accepted, if_true, evaluated, List.forall_mem_cons]
    exact ⟨rfl, compare_clean a op b, List.forall_mem_nil _⟩

/-- A binding without a diagnostic is made, and validation knows its name from then on. -/
theorem bindVariable_clean (current : scope.current? = some block) (covers : Covers bound scope.valuation)
    {expression : String} (none : (bindingProblems bound place expression).1 = []) :
    ∃ after, scope.bindVariable expression context block = .ok after ∧ after.current? = some block ∧
      Covers (bindingProblems bound place expression).2 after.valuation := by
  unfold bindingProblems at none ⊢
  cases parsed : Expression.parse expression .binding with
  | error fault => simp [parsed] at none
  | ok found =>
    obtain ⟨name, source, rfl⟩ := Expression.binding_of_parse parsed
    simp only [parsed] at none ⊢
    obtain ⟨value, known⟩ := value_of_unboundIn context covers none
    obtain ⟨after, registered, opened, -, names⟩ := Scope.register_of_current current name value
    refine ⟨after, ?_, opened, names ▸ covers.set name value⟩
    simp only [Scope.bindVariable, parsed, (Scope.resolve_operand_iff current context source value).mpr known]
    exact registered

theorem recordBindings_clean {index : Nat} {children : List Condition} (current : scope.current? = some block)
    (covers : Covers bound scope.valuation) (none : (bindingsProblems place bound index children).1 = []) :
    (∀ event ∈ (recordBindings context block scope children).events, event.Clean) ∧
      Covers (bindingsProblems place bound index children).2
        (recordBindings context block scope children).value.valuation := by
  induction children generalizing scope bound index with
  | nil => exact ⟨List.forall_mem_nil _, covers⟩
  | cons child rest ih =>
    cases child with
    | list combinator children => exact ih current covers none
    | design expression => exact ih current covers none
    | binding expression =>
      simp only [bindingsProblems, List.append_eq_nil_iff] at none ⊢
      obtain ⟨after, made, opened, still⟩ := bindVariable_clean context current covers none.1
      obtain ⟨others, covered⟩ := ih opened still none.2
      rw [recordBindings, made]
      exact ⟨List.forall_mem_cons.mpr ⟨⟨after, rfl⟩, others⟩, covered⟩

/-! ## Conditions -/

variable (maxDepth : Nat)

mutual
theorem recordCondition_clean {scope : Scope} {block : BlockId} {bound : List String} {place : Place}
    {depth : Nat} {condition : Condition} (current : scope.current? = some block)
    (covers : Covers bound scope.valuation) (none : childProblems maxDepth place depth bound condition = []) :
    ∀ event ∈ (recordCondition maxDepth context block depth scope condition).events, event.Clean := by
  cases condition with
  | binding expression =>
    rw [recordCondition]
    exact List.forall_mem_nil _
  | design expression =>
    rw [childProblems] at none
    rw [recordCondition]
    exact recordDesign_clean context current covers none
  | list combinator children =>
    rw [childProblems] at none
    rw [recordCondition]
    split at none
    · cases none
    · rename_i shallow
      simp only [List.append_eq_nil_iff] at none
      obtain ⟨⟨⟨-, bindings⟩, conditions⟩, -⟩ := none
      have opened := (bindAll_of_current context (Scope.current?_enter scope) children).1
      rw [← recordBindings_value] at opened
      have entered : Covers bound scope.enter.2.valuation := by rwa [Scope.valuation_enter]
      obtain ⟨inner, covered⟩ := recordBindings_clean context (Scope.current?_enter scope) entered bindings
      have outcomes := recordConditions_clean opened covered conditions
      rw [if_neg shallow]
      exact List.forall_mem_append.mpr ⟨inner, outcomes⟩

theorem recordConditions_clean {scope : Scope} {block : BlockId} {bound : List String} {place : Place}
    {depth index : Nat} {children : List Condition} (current : scope.current? = some block)
    (covers : Covers bound scope.valuation)
    (none : childrenProblems maxDepth place depth bound index children = []) :
    ∀ event ∈ (recordConditions maxDepth context block depth scope children).events, event.Clean := by
  cases children with
  | nil =>
    rw [recordConditions]
    exact List.forall_mem_nil _
  | cons child rest =>
    rw [childrenProblems, List.append_eq_nil_iff] at none
    rw [recordConditions]
    split
    · exact recordConditions_clean current covers none.2
    · -- The first condition leaves the frames as they were, so the names are still covered.
      have same := frames_holds maxDepth context block depth scope child
      rw [← recordCondition_value] at same
      have still := (Scope.current?_congr same).trans current
      have covered : Covers bound _ := Scope.valuation_congr same ▸ covers
      have first := recordCondition_clean current covers none.1
      have others := recordConditions_clean still covered none.2
      exact List.forall_mem_append.mpr ⟨first, others⟩
end

/-! ## Rules -/

/-- The condition of a rule without diagnostics is no lone binding, so it was looked at. -/
theorem childProblems_of_conditionProblems {condition : Condition}
    (none : conditionProblems maxDepth condition = []) : childProblems maxDepth [] 0 [] condition = [] := by
  cases condition with
  | binding expression => rw [childProblems]
  | list combinator children => exact none
  | design expression => exact none

theorem recordElement_clean (scope : Scope) {rule : Rule}
    (none : conditionProblems maxDepth rule.condition = []) :
    ∀ event ∈ (recordElement maxDepth context scope rule).events, event.Clean := by
  have nothing : Covers [] scope.enter.2.valuation := List.forall_mem_nil _
  exact recordCondition_clean context maxDepth (Scope.current?_enter scope) nothing
    (childProblems_of_conditionProblems maxDepth none)

theorem recordElements_clean (diagram : Diagram) {rule : Rule} (threat : Threat) (scope : Scope)
    (elements : List Element) (none : conditionProblems maxDepth rule.condition = []) :
    ∀ event ∈ (recordElements maxDepth diagram rule threat scope elements).events, event.Clean := by
  induction elements generalizing scope with
  | nil => exact List.forall_mem_nil _
  | cons element rest ih =>
    rw [recordElements]
    exact List.forall_mem_append.mpr ⟨recordElement_clean _ maxDepth scope none, ih _⟩

/-- A threat without a diagnostic is found. -/
theorem find?_of_threatProblems {threats : List Threat} {id : String} (none : threatProblems threats id = []) :
    ∃ threat, Threat.find? threats id = some threat := by
  rcases find?_threat threats id with ⟨-, unknown⟩ | ⟨threat, found, -⟩
  · have missing : threats.any (·.id = id) = false := by simpa using unknown
    unfold threatProblems at none
    split at none
    · cases none
    · simp [missing] at none
  · exact ⟨threat, found⟩

/-- A rule without errors and warnings is evaluated without a fault, whatever the analyzer has evaluated
before: its threat is found, and neither the evaluation of the rule nor a look at any element of the
diagram meets a list that is nested too deep, a binding that fails, a text that is no comparison or a
comparison that cannot be evaluated for another reason than two lists. -/
theorem record_clean (analyzer : Analyzer) {rule : Rule} {threats : List Threat}
    (noErrors : errorsIn (ruleProblems analyzer.maxDepth threats rule) = [])
    (noWarnings : warningsIn (ruleProblems analyzer.maxDepth threats rule) = []) (diagram : Diagram) :
    (∃ threat, Threat.find? threats rule.threat = some threat) ∧
      (record analyzer rule diagram threats).value = analyzer.evaluate rule diagram threats ∧
      (∀ event ∈ (record analyzer rule diagram threats).events, event.Clean) ∧
      ∀ element ∈ diagram.elements,
        (recordElement analyzer.maxDepth ⟨diagram, element⟩ analyzer.scope rule).value =
          satisfies analyzer.maxDepth analyzer.scope rule ⟨diagram, element⟩ ∧
        ∀ event ∈ (recordElement analyzer.maxDepth ⟨diagram, element⟩ analyzer.scope rule).events,
          event.Clean := by
  have none : ruleProblems analyzer.maxDepth threats rule = [] := by
    rw [List.eq_nil_iff_forall_not_mem]
    intro diagnostic member
    rw [errorsIn, List.filter_eq_nil_iff] at noErrors
    rw [warningsIn, List.filter_eq_nil_iff] at noWarnings
    exact noWarnings diagnostic member (by simpa using noErrors diagnostic member)
  simp only [ruleProblems, List.append_eq_nil_iff] at none
  obtain ⟨⟨-, threat⟩, condition⟩ := none
  obtain ⟨threat, found⟩ := find?_of_threatProblems threat
  refine ⟨⟨threat, found⟩, record_value analyzer rule diagram threats, ?_, fun element _ =>
    ⟨recordElement_value .., recordElement_clean _ _ _ condition⟩⟩
  rw [record, found]
  exact recordElements_clean _ diagram threat analyzer.scope _ condition

/-- A rule that binds a name around two comparisons, one of them in a list of its own. -/
def sampleRule : Rule :=
  ⟨version, DocumentKind.rule.name, ⟨"open-port", "Open port", none, none, true⟩, "exposure", .process,
    .list .all [.binding "PORT = $.port", .design "PORT != 22",
      .list .any [.design "PORT < 1024", .design "$.public == true"]]⟩

def sampleThreats : List Threat := [⟨"exposure", "Exposure", .high, "", "", {}⟩]

def sampleDiagram : Diagram :=
  ⟨[⟨"p", ⟨.process, "box", none, []⟩, [], [("port", .int 80)]⟩], by decide⟩

/-- The evaluation makes one binding, and it checks and evaluates three comparisons. -/
theorem record_clean_sample :
    errorsIn (ruleProblems 2 sampleThreats sampleRule) = [] ∧
      warningsIn (ruleProblems 2 sampleThreats sampleRule) = [] ∧
      (record (Analyzer.new 2) sampleRule sampleDiagram sampleThreats).events.length = 7 ∧
      ∀ event ∈ (record (Analyzer.new 2) sampleRule sampleDiagram sampleThreats).events, event.Clean := by
  have noErrors : errorsIn (ruleProblems 2 sampleThreats sampleRule) = [] := by decide +kernel
  have noWarnings : warningsIn (ruleProblems 2 sampleThreats sampleRule) = [] := by decide +kernel
  exact ⟨noErrors, noWarnings, by decide +kernel,
    (record_clean (Analyzer.new 2) noErrors noWarnings sampleDiagram).2.2.1⟩

end Validation
end ThreatModel
