import ThreatModel.Proofs.Analysis.Refinement
import ThreatModel.Proofs.Validation.Place

/-!
# Repairing rules

Some diagnostics say that a part of a condition has no effect: a comparison or a list that never holds, a
binding that is never made. A rule is repaired by taking such parts out. Main statement: the repaired rule
has the findings of the rule on every diagram, so the diagnostics are right about these parts.
-/

namespace ThreatModel

/-! ## Flagged parts -/

namespace Problem

/-- The problems of a comparison that never holds. -/
def condemnsComparison : Problem → Bool
  | .invalidCondition _ _ | .unbound _ => true
  | _ => false

/-- The problems of a binding that is never made. -/
def condemnsBinding : Problem → Bool
  | .invalidBinding _ _ | .unbound _ => true
  | _ => false

/-- The problem of a list that never holds. -/
def condemnsList : Problem → Bool
  | .tooDeep _ _ => true
  | _ => false

end Problem

/-- Whether a problem of some kind is reported at a place. -/
def flagged (diagnostics : List Diagnostic) (place : Place) (condemns : Problem → Bool) : Bool :=
  diagnostics.any fun diagnostic => diagnostic.place = place && condemns diagnostic.problem

theorem flagged_iff {diagnostics : List Diagnostic} {place : Place} {condemns : Problem → Bool} :
    flagged diagnostics place condemns = true ↔
      ∃ diagnostic ∈ diagnostics, diagnostic.place = place ∧ condemns diagnostic.problem = true := by
  simp [flagged]

namespace Condition

mutual
/-- A condition at a place with its flagged parts taken out: comparisons and lists never hold, and bindings
are no longer there. -/
def repair (diagnostics : List Diagnostic) (place : Place) : Condition → Condition
  | .list combinator children =>
    let place := place ++ [.key combinator.key]
    if flagged diagnostics place Problem.condemnsList then never
    else .list combinator (repairAll diagnostics place 0 children)
  | .design expression =>
    if flagged diagnostics (place ++ [.key "design"]) Problem.condemnsComparison then never
    else .design expression
  | .binding expression => .binding expression

/-- The conditions of a list at a place, the first being at `index`. -/
def repairAll (diagnostics : List Diagnostic) (place : Place) (index : Nat) : List Condition → List Condition
  | [] => []
  | child :: rest =>
    if child.isBinding &&
        flagged diagnostics (place ++ [.index index, .key "variable"]) Problem.condemnsBinding then
      repairAll diagnostics place (index + 1) rest
    else repair diagnostics (place ++ [.index index]) child :: repairAll diagnostics place (index + 1) rest
end

end Condition

/-- A rule with the flagged parts of its condition taken out. -/
def Rule.repair (diagnostics : List Diagnostic) (rule : Rule) : Rule :=
  { rule with condition := rule.condition.repair diagnostics [] }

namespace Validation

/-! ## What diagnostics say about names -/

/-- Validation takes every name that has a value to be bound. -/
def Knows (bound : List String) (names : Valuation) : Prop :=
  ∀ name value, names name = some value → name ∈ bound

variable {bound : List String} {names : Valuation} {place : Place} (context : Context)

/-- An operand with a warning has no value. -/
theorem value?_of_mem_unboundIn (knows : Knows bound names) {operand : Operand} {diagnostic : Diagnostic}
    (member : diagnostic ∈ unboundIn bound place operand) : operand.value? context names = none := by
  obtain ⟨name, segments, rfl, unknown, -⟩ := mem_unboundIn member
  have missing : names name = none := by
    rw [Option.eq_none_iff_forall_ne_some]
    exact fun value known => unknown (knows name value known)
  simp [Operand.value?, missing]

/-- A comparison with a diagnostic never holds. -/
theorem not_designHolds_of_mem (knows : Knows bound names) {expression : String} {diagnostic : Diagnostic}
    (member : diagnostic ∈ designProblems bound place expression) :
    ¬ DesignHolds context names expression := by
  rintro ⟨left, op, right, parsed, a, b, leftValue, rightValue, -⟩
  simp only [designProblems, parsed] at member
  rcases List.mem_append.mp member with first | second
  · rw [value?_of_mem_unboundIn context knows first] at leftValue
    cases leftValue
  · rw [value?_of_mem_unboundIn context knows second] at rightValue
    cases rightValue

/-- A binding with a diagnostic is never made. -/
theorem bind_of_mem (knows : Knows bound names) {expression : String} {diagnostic : Diagnostic}
    (member : diagnostic ∈ (bindingProblems bound place expression).1) :
    names.bind context expression = names := by
  unfold Valuation.bind
  split
  · rename_i name source parsed
    simp only [bindingProblems, parsed] at member
    rw [value?_of_mem_unboundIn context knows member]
  · rfl

theorem Knows.bind (knows : Knows bound names) (place : Place) (expression : String) :
    Knows (bindingProblems bound place expression).2 (names.bind context expression) := by
  unfold Valuation.bind bindingProblems
  cases parsed : Expression.parse expression .binding with
  | error fault => exact knows
  | ok found =>
    cases found with
    | comparison left op right => exact knows
    | binding name source =>
      intro other value known
      simp only at known ⊢
      by_cases same : other = name
      · simp [same]
      · refine List.mem_cons_of_mem name (knows other value ?_)
        cases resolved : source.value? context names with
        | none => simpa [resolved] using known
        | some found => simpa [resolved, Valuation.set, same] using known

/-! ## Lists -/

variable {diagnostics : List Diagnostic} {index : Nat} {children : List Condition}

theorem isBinding_repair (place : Place) (condition : Condition) :
    (condition.repair diagnostics place).isBinding = condition.isBinding := by
  cases condition with
  | list combinator children =>
    rw [Condition.repair]
    split
    · rfl
    · rfl
  | design expression =>
    rw [Condition.repair]
    split
    · rfl
    · rfl
  | binding expression => rw [Condition.repair]

/-- A condition of a list that is no binding adds nothing to what the list binds. -/
theorem bindAll_skip {child : Condition} (condition : child.isBinding = false) (names : Valuation)
    (rest : List Condition) : names.bindAll context (child :: rest) = names.bindAll context rest := by
  cases child with
  | list combinator children => rfl
  | design expression => rfl
  | binding expression => cases condition

/-- A binding that is flagged has a diagnostic in its list. -/
def OwnsBindings (diagnostics : List Diagnostic) (place : Place) (index : Nat) (children : List Condition)
    (own : List Diagnostic) : Prop :=
  ∀ diagnostic ∈ diagnostics, ∀ i expression, children[i]? = some (.binding expression) →
    diagnostic.place = place ++ [.index (index + i), .key "variable"] →
    diagnostic.problem.condemnsBinding = true → diagnostic ∈ own

theorem OwnsBindings.head {expression : String} {rest : List Condition} {own : List Diagnostic}
    (owns : OwnsBindings diagnostics place index (.binding expression :: rest)
      (own ++ (bindingsProblems place bound (index + 1) rest).1))
    (flag : flagged diagnostics (place ++ [.index index, .key "variable"]) Problem.condemnsBinding = true) :
    ∃ diagnostic, diagnostic ∈ own := by
  obtain ⟨diagnostic, member, stands, condemns⟩ := flagged_iff.mp flag
  rcases List.mem_append.mp (owns diagnostic member 0 expression rfl stands condemns) with first | later
  · exact ⟨diagnostic, first⟩
  · obtain ⟨i, -, -, stands', -⟩ := mem_bindingsProblems later
    have same := List.append_cancel_left (stands.symm.trans stands')
    simp only [List.cons.injEq, Step.index.injEq] at same
    omega

theorem OwnsBindings.tail {child : Condition} {rest : List Condition} {own : List Diagnostic}
    (owns : OwnsBindings diagnostics place index (child :: rest)
      (own ++ (bindingsProblems place bound (index + 1) rest).1))
    (first : ∀ diagnostic ∈ own, diagnostic.place = place ++ [.index index, .key "variable"]) :
    OwnsBindings diagnostics place (index + 1) rest (bindingsProblems place bound (index + 1) rest).1 := by
  intro diagnostic member i expression found stands condemns
  have stands' : diagnostic.place = place ++ [.index (index + (i + 1)), .key "variable"] := by
    rw [stands, Nat.add_assoc, Nat.add_comm 1 i]
  rcases List.mem_append.mp (owns diagnostic member (i + 1) expression found stands' condemns) with head | later
  · have same := List.append_cancel_left ((first diagnostic head).symm.trans stands')
    simp only [List.cons.injEq, Step.index.injEq] at same
    omega
  · exact later

/-- Without its flagged bindings a list binds what it binds with them. -/
theorem bindAll_repairAll (knows : Knows bound names)
    (owns : OwnsBindings diagnostics place index children (bindingsProblems place bound index children).1) :
    names.bindAll context (Condition.repairAll diagnostics place index children) =
        names.bindAll context children ∧
      Knows (bindingsProblems place bound index children).2 (names.bindAll context children) := by
  induction children generalizing bound names index with
  | nil =>
    rw [Condition.repairAll]
    exact ⟨rfl, knows⟩
  | cons child rest ih =>
    by_cases kind : child.isBinding = true
    · obtain ⟨expression, rfl⟩ := eq_binding kind
      have own : ∀ diagnostic ∈ (bindingProblems bound (place ++ [.index index, .key "variable"]) expression).1,
          diagnostic.place = place ++ [.index index, .key "variable"] :=
        fun diagnostic member => (mem_bindingProblems member).1
      obtain ⟨others, known⟩ := ih (knows.bind context _ expression) (owns.tail own)
      refine ⟨?_, known⟩
      rw [Condition.repairAll]
      split
      · rename_i deleted
        rw [Bool.and_eq_true] at deleted
        obtain ⟨diagnostic, member⟩ := owns.head deleted.2
        have same := bind_of_mem context knows member
        rw [same] at others
        rw [Valuation.bindAll, same]
        exact others
      · rw [Condition.repair]
        exact others
    · rw [Bool.not_eq_true] at kind
      rw [bindingsProblems_skip kind] at owns ⊢
      have kept : ∀ place, (child.repair diagnostics place).isBinding = false := by
        intro place
        rw [isBinding_repair, kind]
      have others : OwnsBindings diagnostics place index (child :: rest)
          ([] ++ (bindingsProblems place bound (index + 1) rest).1) := owns
      simp only [Condition.repairAll, kind, Bool.false_and, Bool.false_eq_true, if_false,
        bindAll_skip context (kept _), bindAll_skip context kind]
      exact ih knows (others.tail (List.forall_mem_nil _))

/-- The conditions of a repaired list are the repaired conditions of the list. -/
theorem mem_repairAll {condition : Condition} :
    (condition ∈ Condition.repairAll diagnostics place index children ∧ condition.isBinding = false) ↔
      ∃ i child, children[i]? = some child ∧ Condition.isBinding child = false ∧
        condition = Condition.repair diagnostics (place ++ [.index (index + i)]) child := by
  induction children generalizing index with
  | nil =>
    rw [Condition.repairAll]
    simp
  | cons child rest ih =>
    have later := @ih (index + 1)
    simp only [Nat.add_assoc, Nat.add_comm 1] at later
    rw [exists_getElem?_cons, ← later, Condition.repairAll]
    split
    · rename_i deleted
      rw [Bool.and_eq_true] at deleted
      simp [deleted.1]
    · rw [List.mem_cons]
      constructor
      · rintro ⟨rfl | later, kind⟩
        · rw [isBinding_repair] at kind
          exact .inl ⟨kind, rfl⟩
        · exact .inr ⟨later, kind⟩
      · rintro (⟨kind, rfl⟩ | ⟨later, kind⟩)
        · exact ⟨.inl rfl, (isBinding_repair _ _).trans kind⟩
        · exact ⟨.inr later, kind⟩

/-- If each condition of a list holds exactly if it does when repaired, the same goes for any of them. -/
theorem exists_repairAll {p q : Condition → Prop}
    (same : ∀ i child, children[i]? = some child → Condition.isBinding child = false →
      (p (Condition.repair diagnostics (place ++ [.index (index + i)]) child) ↔ q child)) :
    (∃ child ∈ Condition.repairAll diagnostics place index children, child.isBinding = false ∧ p child) ↔
      ∃ child ∈ children, child.isBinding = false ∧ q child := by
  constructor
  · rintro ⟨repaired, member, condition, holds⟩
    obtain ⟨i, child, found, kind, rfl⟩ := mem_repairAll.mp ⟨member, condition⟩
    exact ⟨child, List.mem_of_getElem? found, kind, (same i child found kind).mp holds⟩
  · rintro ⟨child, member, kind, holds⟩
    obtain ⟨i, found⟩ := List.mem_iff_getElem?.mp member
    obtain ⟨inside, kind'⟩ := mem_repairAll.mpr ⟨i, child, found, kind, rfl⟩
    exact ⟨_, inside, kind', (same i child found kind).mpr holds⟩

/-- And the same goes for all of them. -/
theorem forall_repairAll {p q : Condition → Prop}
    (same : ∀ i child, children[i]? = some child → Condition.isBinding child = false →
      (p (Condition.repair diagnostics (place ++ [.index (index + i)]) child) ↔ q child)) :
    (∀ child ∈ Condition.repairAll diagnostics place index children, child.isBinding = false → p child) ↔
      ∀ child ∈ children, child.isBinding = false → q child := by
  have negated := exists_repairAll (p := (¬ p ·)) (q := (¬ q ·)) fun i child found kind =>
    not_congr (same i child found kind)
  simpa using not_congr negated

/-! ## Conditions -/

variable {maxDepth : Nat}

theorem concerns_of_condemns {problem : Problem} (condemns : problem.condemnsList = true ∨
    problem.condemnsComparison = true ∨ problem.condemnsBinding = true) : problem.concernsCondition = true := by
  cases problem
  case tooDeep | unbound | invalidCondition | invalidBinding => rfl
  all_goals simp [Problem.condemnsList, Problem.condemnsComparison, Problem.condemnsBinding] at condemns

/-- Of some diagnostics, those that point into a condition are its own. -/
def Owns (diagnostics : List Diagnostic) (place : Place) (own : List Diagnostic) : Prop :=
  ∀ diagnostic ∈ diagnostics, Below place diagnostic → diagnostic ∈ own

/-- A list that is not nested too deep is not flagged. -/
theorem not_flagged_of_shallow {depth : Nat} {combinator : Combinator} (shallow : ¬ maxDepth < depth + 1)
    (owns : Owns diagnostics place (childProblems maxDepth place depth bound (.list combinator children))) :
    flagged diagnostics (place ++ [.key combinator.key]) Problem.condemnsList = false := by
  rw [Bool.eq_false_iff]
  intro flag
  obtain ⟨diagnostic, member, stands, condemns⟩ := flagged_iff.mp flag
  have below : Below place diagnostic :=
    ⟨stands ▸ List.prefix_append _ _, concerns_of_condemns (.inl condemns)⟩
  rcases mem_listProblems shallow (owns diagnostic member below) with ⟨-, own, -⟩ | bindings | conditions
  · rcases own with own | own
    · rw [own] at condemns
      cases condemns
    · rw [own] at condemns
      cases condemns
  · obtain ⟨i, expression, -, stands', -⟩ := mem_bindingsProblems bindings
    have := congrArg List.length (stands.symm.trans stands')
    simp at this
  · obtain ⟨i, child, -, inside⟩ := mem_childrenProblems conditions
    have := (below_childProblems child inside).place.length_le
    simp [stands] at this

/-- The bindings of a list own what points to them. -/
theorem Owns.bindings {depth : Nat} {combinator : Combinator} (shallow : ¬ maxDepth < depth + 1)
    (owns : Owns diagnostics place (childProblems maxDepth place depth bound (.list combinator children))) :
    OwnsBindings diagnostics (place ++ [.key combinator.key]) 0 children
      (bindingsProblems (place ++ [.key combinator.key]) bound 0 children).1 := by
  intro diagnostic member i expression found stands condemns
  have below : Below place diagnostic := by
    refine ⟨?_, concerns_of_condemns (.inr (.inr condemns))⟩
    rw [stands, List.append_assoc]
    exact List.prefix_append _ _
  rcases mem_listProblems shallow (owns diagnostic member below) with ⟨stands', -⟩ | bindings | conditions
  · have := congrArg List.length (stands.symm.trans stands')
    simp at this
  · exact bindings
  · -- A binding is looked at with the other bindings and has no diagnostics of its own.
    obtain ⟨j, child, found', inside⟩ := mem_childrenProblems conditions
    have here : place ++ [.key combinator.key] ++ [.index (0 + i)] <+: diagnostic.place :=
      ⟨[.key "variable"], by rw [stands, List.append_assoc]; rfl⟩
    have same := index_unique here (below_childProblems child inside).place
    rw [Nat.zero_add, Nat.zero_add] at same
    rw [← same, found] at found'
    cases found'
    rw [childProblems] at inside
    cases inside

/-- A condition of a list owns what points into it. -/
theorem Owns.child {depth : Nat} {combinator : Combinator} (shallow : ¬ maxDepth < depth + 1)
    (owns : Owns diagnostics place (childProblems maxDepth place depth bound (.list combinator children)))
    {i : Nat} {child : Condition} (found : children[i]? = some child) (kind : child.isBinding = false) :
    Owns diagnostics (place ++ [.key combinator.key] ++ [.index (0 + i)])
      (childProblems maxDepth (place ++ [.key combinator.key] ++ [.index (0 + i)]) (depth + 1)
        (bindingsProblems (place ++ [.key combinator.key]) bound 0 children).2 child) := by
  intro diagnostic member below
  rcases mem_listProblems shallow (owns diagnostic member below.up.up) with ⟨stands, -⟩ | bindings | conditions
  · have := below.place.length_le
    simp [stands] at this
  · obtain ⟨j, expression, found', stands, -⟩ := mem_bindingsProblems bindings
    have there : place ++ [.key combinator.key] ++ [.index (0 + j)] <+: diagnostic.place :=
      ⟨[.key "variable"], by rw [stands, List.append_assoc]; rfl⟩
    have same := index_unique below.place there
    rw [Nat.zero_add, Nat.zero_add] at same
    rw [← same, found] at found'
    cases found'
    cases kind
  · obtain ⟨j, child', found', inside⟩ := mem_childrenProblems conditions
    have same := index_unique below.place (below_childProblems child' inside).place
    rw [Nat.zero_add, Nat.zero_add] at same
    subst same
    rw [found] at found'
    cases found'
    exact inside

/-- What is taken out of a condition has no effect. -/
theorem holds_repair (condition : Condition) {names : Valuation} {place : Place} {bound : List String}
    {depth : Nat} (knows : Knows bound names)
    (owns : Owns diagnostics place (childProblems maxDepth place depth bound condition)) :
    (condition.repair diagnostics place).Holds maxDepth context names (depth + 1) ↔
      condition.Holds maxDepth context names (depth + 1) := by
  induction condition using Condition.induction generalizing names place bound depth with
  | binding expression => rw [Condition.repair]
  | design expression =>
    rw [Condition.repair]
    split
    · rename_i flag
      obtain ⟨diagnostic, member, stands, condemns⟩ := flagged_iff.mp flag
      have below : Below place diagnostic :=
        ⟨stands ▸ List.prefix_append _ _, concerns_of_condemns (.inr (.inl condemns))⟩
      have own := owns diagnostic member below
      rw [childProblems] at own
      rw [Condition.holds_design]
      exact iff_of_false Condition.not_holds_never (not_designHolds_of_mem context knows own)
    · rfl
  | list combinator children ih =>
    rw [Condition.repair]
    by_cases deep : maxDepth < depth + 1
    · refine iff_of_false ?_ (Condition.not_holds_deep deep)
      split
      · exact Condition.not_holds_never
      · exact Condition.not_holds_deep deep
    · have unflagged := not_flagged_of_shallow deep owns
      obtain ⟨same, known⟩ := bindAll_repairAll context knows (owns.bindings deep)
      have each : ∀ i child, children[i]? = some child → Condition.isBinding child = false →
          ((Condition.repair diagnostics (place ++ [.key combinator.key] ++ [.index (0 + i)]) child).Holds
              maxDepth context (names.bindAll context children) (depth + 1 + 1) ↔
            Condition.Holds maxDepth context (names.bindAll context children) (depth + 1 + 1) child) :=
        fun i child found kind => ih child (List.mem_of_getElem? found) known (owns.child deep found kind)
      simp only [unflagged, Bool.false_eq_true, if_false]
      cases combinator with
      | all =>
        rw [Condition.holds_all, Condition.holds_all, same]
        exact and_congr_right' (forall_repairAll each)
      | any =>
        rw [Condition.holds_any, Condition.holds_any, same]
        exact and_congr_right' (exists_repairAll each)

/-! ## Rules -/

/-- The problems of a rule outside its condition and its reference to a threat. -/
theorem mem_headerProblems {version kind : String} {header : Header} {diagnostic : Diagnostic}
    (member : diagnostic ∈ headerProblems .rule .oddRuleId version kind header) :
    diagnostic.problem.concernsCondition = false ∧
      ∀ id similar, diagnostic.problem ≠ .unknownThreat id similar := by
  simp only [headerProblems, List.mem_append] at member
  rcases member with ((member | member) | member) | member
  · unfold versionProblems at member
    split at member
    · cases member
    · cases List.mem_singleton.mp member
      exact ⟨rfl, by simp⟩
  · unfold kindProblems at member
    split at member
    · cases member
    · cases List.mem_singleton.mp member
      exact ⟨rfl, by simp⟩
  · unfold idProblems at member
    simp only at member
    split at member
    · cases List.mem_singleton.mp member
      exact ⟨rfl, by simp⟩
    · split at member
      · cases member
      · cases List.mem_singleton.mp member
        exact ⟨rfl, by simp⟩
  · unfold nameProblems at member
    split at member
    · cases List.mem_singleton.mp member
      exact ⟨rfl, by simp⟩
    · cases member

/-- A threat that is reported as unknown is not found. -/
theorem mem_threatProblems {threats : List Threat} {id : String} {diagnostic : Diagnostic}
    (member : diagnostic ∈ threatProblems threats id) :
    diagnostic.problem.concernsCondition = false ∧
      ∀ id' similar, diagnostic.problem = .unknownThreat id' similar → Threat.find? threats id = none := by
  unfold threatProblems at member
  split at member
  · cases List.mem_singleton.mp member
    exact ⟨rfl, by simp⟩
  · split at member
    · cases member
    · rename_i unknown
      cases List.mem_singleton.mp member
      refine ⟨rfl, fun _ _ _ => ?_⟩
      simpa [Threat.find?] using unknown

theorem mem_conditionProblems {condition : Condition} {diagnostic : Diagnostic}
    (member : diagnostic ∈ conditionProblems maxDepth condition) :
    diagnostic.problem = .loneBinding ∨ diagnostic ∈ childProblems maxDepth [] 0 [] condition := by
  cases condition with
  | binding expression =>
    cases List.mem_singleton.mp member
    exact .inl rfl
  | list combinator children => exact .inr member
  | design expression => exact .inr member

/-- The diagnostics of a rule that point into its condition are those of the condition. -/
theorem owns_ruleProblems (threats : List Threat) (rule : Rule) :
    Owns (ruleProblems maxDepth threats rule) [] (childProblems maxDepth [] 0 [] rule.condition) := by
  intro diagnostic member below
  have concerns := below.problem
  simp only [ruleProblems, List.mem_append] at member
  rcases member with (header | threat) | condition
  · rw [(mem_headerProblems header).1] at concerns
    cases concerns
  · rw [(mem_threatProblems threat).1] at concerns
    cases concerns
  · rcases mem_conditionProblems condition with lone | inside
    · rw [lone] at concerns
      cases concerns
    · exact inside

theorem matches_repair (threats : List Threat) (rule : Rule) :
    (rule.repair (ruleProblems maxDepth threats rule)).Matches maxDepth context ↔
      rule.Matches maxDepth context := by
  have nothing : Knows [] Valuation.empty := by
    intro name value known
    cases known
  exact holds_repair context rule.condition nothing (owns_ruleProblems threats rule)

theorem findings_repair (threats known : List Threat) (rule : Rule) (diagram : Diagram) :
    (rule.repair (ruleProblems maxDepth threats rule)).findings maxDepth diagram known =
      rule.findings maxDepth diagram known := by
  simp only [Rule.findings, matches_repair]
  rfl

/-- A rule whose threat is reported as unknown is passed over. -/
theorem find?_of_unknownThreat {threats : List Threat} {rule : Rule} {diagnostic : Diagnostic} {id : String}
    {similar : Option String} (member : diagnostic ∈ ruleProblems maxDepth threats rule)
    (unknown : diagnostic.problem = .unknownThreat id similar) : Threat.find? threats rule.threat = none := by
  simp only [ruleProblems, List.mem_append] at member
  rcases member with (header | threat) | condition
  · exact absurd unknown ((mem_headerProblems header).2 id similar)
  · exact (mem_threatProblems threat).2 id similar unknown
  · rcases mem_conditionProblems condition with lone | inside
    · rw [lone] at unknown
      cases unknown
    · have concerns := (below_childProblems rule.condition inside).problem
      rw [unknown] at concerns
      cases concerns

/-- The diagnostics of a rule are right about what has no effect: the repaired rule has the findings of the
rule on every diagram, whatever the analyzers have evaluated before, and a rule whose threat is reported as
unknown has none. -/
theorem repair_findings (maxDepth : Nat) (threats : List Threat) (rule : Rule) :
    (∀ history history' diagram known,
      (((Analyzer.new maxDepth).after history).evaluate (rule.repair (ruleProblems maxDepth threats rule))
          diagram known).1 =
        (((Analyzer.new maxDepth).after history').evaluate rule diagram known).1) ∧
    ((∃ diagnostic ∈ ruleProblems maxDepth threats rule,
        ∃ id similar, diagnostic.problem = .unknownThreat id similar) →
      ∀ history diagram, (((Analyzer.new maxDepth).after history).evaluate rule diagram threats).1 = []) := by
  constructor
  · intro history history' diagram known
    rw [Analyzer.evaluate_after, Analyzer.evaluate_after]
    exact findings_repair threats known rule diagram
  · rintro ⟨diagnostic, member, id, similar, unknown⟩ history diagram
    rw [Analyzer.evaluate, find?_of_unknownThreat member unknown]

/-- A rule with a part of each kind that is taken out: its binding reads a name that is not bound, its inner list is
nested too deep for a bound of one, and the text behind that is no comparison. Its last comparison is sound. -/
def strayRule : Rule :=
  ⟨version, DocumentKind.rule.name, ⟨"stray", "Stray", none, none, true⟩, "exposure", .process,
    .list .any [.binding "PORT = HOST.port", .design "PORT == 22", .list .all [.design "$.public == true"],
      .design "$.public", .design "$.public == true"]⟩

def strayThreats : List Threat := [⟨"exposure", "Exposure", .high, "", "", {}⟩]

def strayDiagram : Diagram :=
  ⟨[⟨"shop", ⟨.process, "box", none, []⟩, [], [("public", .truth true)]⟩,
    ⟨"audit", ⟨.process, "disc", none, []⟩, [], [("public", .truth false)]⟩], by decide⟩

/-- The rule finds one of two processes, and so does what is left of it. It finds none if its threat is not known. -/
theorem repair_findings_stray :
    strayRule.repair (ruleProblems 1 strayThreats strayRule) =
        { strayRule with
          condition := .list .any [.design "PORT == 22", .never, .never, .design "$.public == true"] } ∧
      (∀ history,
        (((Analyzer.new 1).after history).evaluate (strayRule.repair (ruleProblems 1 strayThreats strayRule))
          strayDiagram strayThreats).1 = [⟨.process, "box", "stray", "exposure"⟩]) ∧
      (∃ diagnostic ∈ ruleProblems 1 [] strayRule,
        ∃ id similar, diagnostic.problem = .unknownThreat id similar) ∧
      ∀ history diagram, (((Analyzer.new 1).after history).evaluate strayRule diagram []).1 = [] := by
  have found : ((Analyzer.new 1).evaluate strayRule strayDiagram strayThreats).1 =
      [⟨.process, "box", "stray", "exposure"⟩] := by decide +kernel
  have unknown : ∃ diagnostic ∈ ruleProblems 1 [] strayRule,
      ∃ id similar, diagnostic.problem = .unknownThreat id similar :=
    ⟨⟨[.key "threat"], .unknownThreat "exposure" none⟩, by decide +kernel, _, _, rfl⟩
  refine ⟨by decide +kernel, fun history => ?_, unknown, (repair_findings 1 [] strayRule).2 unknown⟩
  exact ((repair_findings 1 strayThreats strayRule).1 history [] strayDiagram strayThreats).trans found

end Validation
end ThreatModel
