import ThreatModel.Proofs.Analysis.Meaning

/-!
# Evaluation finds what conditions mean

Evaluation threads a scope through the tree of a condition and opens and closes blocks on the way. Main
statements: a condition leaves the frames of the scope as they were, and it comes to what it means over
the valuation of the scope, whatever numbers the blocks have. So the findings of a rule do not depend on
what its analyzer has evaluated before.
-/

namespace ThreatModel

namespace Scope

variable {scope : Scope} {block : BlockId} {context : Context}

theorem valuation_congr {left right : Scope} (same : left.frames = right.frames) :
    left.valuation = right.valuation := by
  funext name
  simp only [valuation, same]

theorem current?_congr {left right : Scope} (same : left.frames = right.frames) :
    left.current? = right.current? := by
  simp only [current?, same]

/-- A text evaluates to true exactly if it holds as a comparison. -/
theorem evaluate_iff (current : scope.current? = some block) (expression : String) :
    scope.evaluate expression context block = .ok true ↔
      DesignHolds context scope.valuation expression := by
  cases parsed : Expression.parse expression .design with
  | error fault => simp [evaluate, DesignHolds, parsed]
  | ok found =>
    cases found with
    | binding name source => simp [evaluate, DesignHolds, parsed]
    | comparison left op right =>
      rw [designHolds_iff parsed]
      simp only [evaluate, parsed, ← resolve_operand_iff current]
      cases left.resolve scope context block with
      | error fault => simp [bind, Except.bind]
      | ok a =>
        cases right.resolve scope context block with
        | error fault => simp [bind, Except.bind]
        | ok b => simp [bind, Except.bind]

/-- What a binding in the innermost block does: it fails and has no meaning either, or it changes the
bindings of the block as it means to. -/
theorem bindVariable_of_current (context : Context) (current : scope.current? = some block)
    (expression : String) :
    match scope.bindVariable expression context block with
    | .ok after => after.current? = some block ∧ after.frames.tail = scope.frames.tail ∧
        after.valuation = scope.valuation.bind context expression
    | .error _ => scope.valuation.bind context expression = scope.valuation := by
  cases parsed : Expression.parse expression .binding with
  | error fault => simp [bindVariable, Valuation.bind, parsed]
  | ok found =>
    cases found with
    | comparison left op right => simp [bindVariable, Valuation.bind, parsed]
    | binding name source =>
      cases resolved : source.resolve scope context block with
      | error fault =>
        have unknown : source.value? context scope.valuation = none := by
          rw [Option.eq_none_iff_forall_ne_some]
          intro value known
          rw [← resolve_operand_iff current, resolved] at known
          cases known
        simp [bindVariable, Valuation.bind, parsed, resolved, unknown, Bind.bind, Except.bind]
      | ok value =>
        obtain ⟨after, registered, opened, outer, names⟩ := register_of_current current name value
        rw [resolve_operand_iff current] at resolved
        simp [bindVariable, Valuation.bind, parsed, (resolve_operand_iff current ..).mpr resolved,
          resolved, registered, opened, outer, names, Bind.bind, Except.bind]

end Scope

namespace Analyzer

/-- The bindings of a list change the innermost block, and as they mean to. -/
theorem bindAll_of_current (context : Context) {scope : Scope} {block : BlockId}
    (current : scope.current? = some block) (children : List Condition) :
    (bindAll context block scope children).current? = some block ∧
      (bindAll context block scope children).frames.tail = scope.frames.tail ∧
      (bindAll context block scope children).valuation = scope.valuation.bindAll context children := by
  induction children generalizing scope with
  | nil => exact ⟨current, rfl, rfl⟩
  | cons child rest ih =>
    cases child with
    | list combinator children => exact ih current
    | design expression => exact ih current
    | binding expression =>
      have step := Scope.bindVariable_of_current context current expression
      simp only [bindAll, Valuation.bindAll]
      cases bound : scope.bindVariable expression context block with
      | error fault =>
        simp only [bound] at step ⊢
        rw [step]
        exact ih current
      | ok after =>
        simp only [bound] at step ⊢
        obtain ⟨opened, outer, names⟩ := step
        rw [← outer, ← names]
        exact ih opened

/-! ## Frames -/

variable (maxDepth : Nat) (context : Context)

theorem holds_list (block : BlockId) (depth : Nat) (scope : Scope) (combinator : Combinator)
    (children : List Condition) :
    holds maxDepth context block depth scope (.list combinator children) =
      if maxDepth < depth + 1 then (false, scope)
      else
        let inner := bindAll context scope.enter.1 scope.enter.2 children
        let outcomes := outcomesOf maxDepth context scope.enter.1 (depth + 1) inner children
        (combine combinator outcomes.1, outcomes.2.leave) := by
  rw [holds]

theorem outcomesOf_cons (block : BlockId) (depth : Nat) (scope : Scope) (child : Condition)
    (rest : List Condition) :
    outcomesOf maxDepth context block depth scope (child :: rest) =
      if child.isBinding then outcomesOf maxDepth context block depth scope rest
      else
        let first := holds maxDepth context block depth scope child
        let others := outcomesOf maxDepth context block depth first.2 rest
        (first.1 :: others.1, others.2) := by
  rw [outcomesOf]

mutual
/-- The blocks that a condition opens are closed again, and no binding of another block is touched. -/
theorem frames_holds (block : BlockId) (depth : Nat) (scope : Scope) (condition : Condition) :
    (holds maxDepth context block depth scope condition).2.frames = scope.frames := by
  cases condition with
  | list combinator children =>
    rw [holds_list]
    split
    · rfl
    · have entered := bindAll_of_current context (Scope.current?_enter scope) children
      simp only [Scope.frames_leave, frames_outcomesOf, entered.2.1, Scope.frames_enter, List.tail_cons]
  | design expression => rw [holds]
  | binding expression => rw [holds]

theorem frames_outcomesOf (block : BlockId) (depth : Nat) (scope : Scope) (children : List Condition) :
    (outcomesOf maxDepth context block depth scope children).2.frames = scope.frames := by
  cases children with
  | nil => rw [outcomesOf]
  | cons child rest =>
    rw [outcomesOf_cons]
    split
    · exact frames_outcomesOf block depth scope rest
    · exact (frames_outcomesOf block depth _ rest).trans (frames_holds block depth scope child)
end

/-! ## Outcomes -/

theorem combine_all (conditions : List Condition) (p : Condition → Prop) [DecidablePred p] :
    combine .all ((conditions.filter (!·.isBinding)).map fun child => decide (p child)) =
      decide (∀ child ∈ conditions, child.isBinding = false → p child) := by
  rw [Bool.eq_iff_iff]
  simp [combine, Decidable.or_iff_not_imp_left]

theorem combine_any (conditions : List Condition) (p : Condition → Prop) [DecidablePred p] :
    combine .any ((conditions.filter (!·.isBinding)).map fun child => decide (p child)) =
      decide (∃ child ∈ conditions, child.isBinding = false ∧ p child) := by
  rw [Bool.eq_iff_iff]
  simp [combine]

theorem designHolds_eq {scope : Scope} {block : BlockId} (current : scope.current? = some block)
    (expression : String) :
    designHolds scope context block expression =
      decide (DesignHolds context scope.valuation expression) := by
  rw [Bool.eq_iff_iff, decide_eq_true_iff, ← Scope.evaluate_iff current]
  unfold designHolds
  cases evaluated : scope.evaluate expression context block with
  | error fault => simp
  | ok holds =>
    -- What evaluates has parsed, so the check before it says nothing new.
    have accepted : Scope.accepts expression = true := by
      unfold Scope.accepts
      unfold Scope.evaluate at evaluated
      split at evaluated <;> simp_all
    simp [accepted]

mutual
/-- A condition comes to whether it holds over the valuation of the scope. -/
theorem holds_fst {block : BlockId} (depth : Nat) {scope : Scope}
    (current : scope.current? = some block) (condition : Condition) :
    (holds maxDepth context block depth scope condition).1 =
      decide (condition.Holds maxDepth context scope.valuation (depth + 1)) := by
  cases condition with
  | design expression => simpa [holds] using designHolds_eq context current expression
  | binding expression => simp [holds]
  | list combinator children =>
    rw [holds_list]
    split
    · rename_i deep
      have outside : ¬ depth + 1 ≤ maxDepth := by omega
      cases combinator with
      | all => simp [Condition.holds_all, outside]
      | any => simp [Condition.holds_any, outside]
    · rename_i shallow
      obtain ⟨opened, -, names⟩ :=
        bindAll_of_current context (Scope.current?_enter scope) children
      have outcomes := outcomesOf_fst (depth + 1) opened children
      rw [names, Scope.valuation_enter] at outcomes
      have inside : depth + 1 ≤ maxDepth := by omega
      cases combinator with
      | all => simp [outcomes, combine_all, Condition.holds_all, inside]
      | any => simp [outcomes, combine_any, Condition.holds_any, inside]

theorem outcomesOf_fst {block : BlockId} (depth : Nat) {scope : Scope}
    (current : scope.current? = some block) (children : List Condition) :
    (outcomesOf maxDepth context block depth scope children).1 =
      (children.filter (!·.isBinding)).map fun child =>
        decide (child.Holds maxDepth context scope.valuation (depth + 1)) := by
  cases children with
  | nil => rw [outcomesOf]; rfl
  | cons child rest =>
    rw [outcomesOf_cons]
    split
    · rename_i skipped
      rw [List.filter_cons_of_neg (by simp [skipped])]
      exact outcomesOf_fst depth current rest
    · rename_i taken
      have same := frames_holds maxDepth context block depth scope child
      have still := (Scope.current?_congr same).trans current
      rw [List.filter_cons_of_pos (by simpa using taken), List.map_cons]
      simp only [holds_fst depth current child, outcomesOf_fst depth still rest, Scope.valuation_congr same]
end

/-! ## Rules -/

theorem frames_satisfies (scope : Scope) (rule : Rule) :
    (satisfies maxDepth scope rule context).2.frames = scope.frames := by
  have same := frames_holds maxDepth context scope.enter.1 0 scope.enter.2 rule.condition
  simp only [satisfies, Scope.frames_leave, same, Scope.frames_enter, List.tail_cons]

theorem satisfies_fst {scope : Scope} (idle : scope.frames = []) (rule : Rule) :
    (satisfies maxDepth scope rule context).1 = decide (rule.Matches maxDepth context) := by
  have outcome := holds_fst maxDepth context 0 (Scope.current?_enter scope) rule.condition
  rw [Scope.valuation_enter, Scope.valuation_no_frames idle] at outcome
  exact outcome

theorem findingsOn_fst (diagram : Diagram) (rule : Rule) (threat : Threat) {scope : Scope}
    (idle : scope.frames = []) (elements : List Element) :
    (findingsOn maxDepth diagram rule threat scope elements).1 =
      (elements.filter fun element => rule.Matches maxDepth ⟨diagram, element⟩).map fun element =>
        ⟨rule.category, element.shape, rule.id, threat.id⟩ := by
  induction elements generalizing scope with
  | nil => rfl
  | cons element rest ih =>
    have others := ih ((frames_satisfies maxDepth ⟨diagram, element⟩ scope rule).trans idle)
    rw [findingsOn]
    simp only [others, satisfies_fst maxDepth ⟨diagram, element⟩ idle rule, List.filter_cons]
    by_cases holds : rule.Matches maxDepth ⟨diagram, element⟩
    · simp [holds]
    · simp [holds]

variable {maxDepth}

/-- The threat of a rule is looked up by its id, and the first of several counts. -/
theorem find?_threat (threats : List Threat) (id : String) :
    (Threat.find? threats id = none ∧ id ∉ threats.map Threat.id) ∨
      ∃ threat, Threat.find? threats id = some threat ∧ threat.id = id ∧ id ∈ threats.map Threat.id := by
  unfold Threat.find?
  cases found : threats.find? (·.id = id) with
  | none =>
    refine .inl ⟨rfl, ?_⟩
    simpa using found
  | some threat =>
    have same : threat.id = id := by simpa using List.find?_some found
    exact .inr ⟨threat, rfl, same, List.mem_map.mpr ⟨threat, List.mem_of_find?_eq_some found, same⟩⟩

theorem evaluate_fst {analyzer : Analyzer} (idle : analyzer.scope.frames = []) (rule : Rule)
    (diagram : Diagram) (threats : List Threat) :
    (analyzer.evaluate rule diagram threats).1 = rule.findings analyzer.maxDepth diagram threats := by
  unfold evaluate Rule.findings
  rcases find?_threat threats rule.threat with ⟨none, unknown⟩ | ⟨threat, found, same, known⟩
  · simp [none, unknown]
  · simp only [found, known, findingsOn_fst analyzer.maxDepth diagram rule threat idle, same,
      Diagram.ofCategory, List.filter_filter, if_true, Bool.decide_and, Bool.and_comm]

theorem evaluate_snd {analyzer : Analyzer} (idle : analyzer.scope.frames = []) (rule : Rule)
    (diagram : Diagram) (threats : List Threat) :
    (analyzer.evaluate rule diagram threats).2.scope.frames = [] ∧
      (analyzer.evaluate rule diagram threats).2.maxDepth = analyzer.maxDepth := by
  unfold evaluate
  cases Threat.find? threats rule.threat with
  | none => exact ⟨idle, rfl⟩
  | some threat => exact ⟨rfl, rfl⟩

/-! ## Histories -/

/-- What an analyzer is asked to evaluate. -/
structure Call where
  rule : Rule
  diagram : Diagram
  threats : List Threat

/-- Evaluates a rule and puts its findings behind those that are there already. -/
def evaluateOnto (results : List Finding) (analyzer : Analyzer) (call : Call) : List Finding × Analyzer :=
  let (findings, analyzer) := analyzer.evaluate call.rule call.diagram call.threats
  (results ++ findings, analyzer)

/-- The analyzer after calls, whatever it found. -/
def after (analyzer : Analyzer) (calls : List Call) : Analyzer :=
  calls.foldl (fun analyzer call => (analyzer.evaluate call.rule call.diagram call.threats).2) analyzer

/-- Between calls no block is open, and the bound on nesting stays. -/
theorem after_idle {analyzer : Analyzer} (idle : analyzer.scope.frames = []) (calls : List Call) :
    (analyzer.after calls).scope.frames = [] ∧ (analyzer.after calls).maxDepth = analyzer.maxDepth := by
  induction calls generalizing analyzer with
  | nil => exact ⟨idle, rfl⟩
  | cons call rest ih =>
    obtain ⟨closed, bound⟩ := evaluate_snd idle call.rule call.diagram call.threats
    obtain ⟨closed', bound'⟩ := ih closed
    exact ⟨closed', bound'.trans bound⟩

/-- A rule has the findings that it means, whatever its analyzer was asked before. -/
theorem evaluate_after (maxDepth : Nat) (history : List Call) (rule : Rule) (diagram : Diagram)
    (threats : List Threat) :
    (((Analyzer.new maxDepth).after history).evaluate rule diagram threats).1 =
      rule.findings maxDepth diagram threats := by
  have new : (Analyzer.new maxDepth).scope.frames = [] := rfl
  obtain ⟨idle, bound⟩ := after_idle new history
  rw [evaluate_fst idle, bound]
  rfl

/-- Whatever an analyzer was asked before, a rule adds the findings that it means to those that are there
already, which stay as they are. -/
theorem evaluateOnto_after (maxDepth : Nat) (history : List Call) (results : List Finding) (call : Call) :
    (evaluateOnto results ((Analyzer.new maxDepth).after history) call).1 =
      results ++ call.rule.findings maxDepth call.diagram call.threats := by
  simp only [evaluateOnto, evaluate_after]

end Analyzer
end ThreatModel
