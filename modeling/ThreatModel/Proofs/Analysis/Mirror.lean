import ThreatModel.Proofs.Analysis.Arrangement
import ThreatModel.Proofs.Scope.Naming
import ThreatModel.Proofs.Value.Mirror

/-!
# Comparisons the other way around

Main statement: the sides of a comparison may change places if the operator is turned around. Its answer stays the
same, but of two names that are not bound the one is reported that stands first; and a rule has the same findings
whichever way its comparisons are written.
-/

namespace ThreatModel

namespace Expression

/-- The sides of a comparison in each other's place, and its operator turned around. -/
def Layout.mirror (layout : Layout) (op : Comparator) : Layout :=
  { layout with left := layout.right, sign := signText (.compare op.swap), right := layout.left }

theorem Layout.Spells.mirror {layout : Layout} {left right : Operand} {op : Comparator}
    (parts : layout.Spells left (.compare op) right) :
    (layout.mirror op).Spells right (.compare op.swap) left :=
  ⟨parts.before, parts.right, parts.beforeSign, rfl, parts.afterSign, parts.left, parts.after⟩

theorem Layout.Spells.spelled {layout : Layout} {left right : Operand} {sign : Sign}
    (parts : layout.Spells left sign right) : Spelled (String.ofList layout.text) left sign right :=
  ⟨layout, String.toList_ofList.symm, parts⟩

end Expression

namespace Scope

variable {scope : Scope} {context : Context} {block : BlockId}

/-- An operand has no value if it reads a name in a block that is not open, or one that is not bound. -/
theorem resolve_fails {operand : Operand} {fault : EvalError}
    (failed : operand.resolve scope context block = .error fault) :
    ∃ name, operand.variableName? = some name ∧
      (scope.visible block = [] ∧ fault = .unknownBlock block ∨
        scope.visible block ≠ [] ∧ fault = .unboundVariable name) := by
  cases operand with
  | path segments => cases failed
  | literal content => cases failed
  | named name segments =>
    refine ⟨name, rfl, ?_⟩
    have unresolved : scope.resolve name block = .error fault := by
      cases resolved : scope.resolve name block with
      | ok value =>
        rw [resolve_named resolved] at failed
        cases failed
      | error other =>
        rw [Operand.resolve, resolved] at failed
        cases failed
        rfl
    unfold resolve at unresolved
    split at unresolved
    · rename_i closed
      cases unresolved
      exact .inl ⟨closed, rfl⟩
    · rename_i opened
      split at unresolved
      · cases unresolved
      · cases unresolved
        exact .inr ⟨opened, rfl⟩

/-- A comparison may be written the other way around. Of two names that are not bound, each way reports the one that
it reads first. -/
theorem evaluate_mirror {text mirrored : String} {left right : Operand} {op : Comparator}
    (spelled : Expression.Spelled text left (.compare op) right)
    (spelled' : Expression.Spelled mirrored right (.compare op.swap) left) :
    scope.evaluate mirrored context block = scope.evaluate text context block ∨
      ∃ name name', left.variableName? = some name ∧ right.variableName? = some name' ∧
        scope.evaluate text context block = .error (.unboundVariable name) ∧
        scope.evaluate mirrored context block = .error (.unboundVariable name') := by
  rw [evaluate_of_spelled spelled, evaluate_of_spelled spelled']
  cases first : left.resolve scope context block with
  | ok a =>
    cases second : right.resolve scope context block with
    | ok b => exact .inl (a.compare_swap b op).symm
    | error fault => exact .inl rfl
  | error fault =>
    cases second : right.resolve scope context block with
    | ok b => exact .inl rfl
    | error fault' =>
      obtain ⟨name, reads, why⟩ := resolve_fails first
      obtain ⟨name', reads', why'⟩ := resolve_fails second
      rcases why with ⟨closed, rfl⟩ | ⟨opened, rfl⟩
      · rcases why' with ⟨-, rfl⟩ | ⟨opened, -⟩
        · exact .inl rfl
        · exact absurd closed opened
      · rcases why' with ⟨closed, -⟩ | ⟨-, rfl⟩
        · exact absurd closed opened
        · exact .inr ⟨name, name', reads, reads', rfl, rfl⟩

end Scope

namespace Condition

/-- One comparison in a condition, alone or in its lists, is written the other way around. -/
inductive Mirrored : Condition → Condition → Prop
  | here {layout : Expression.Layout} {left right : Operand} {op : Comparator}
      (parts : layout.Spells left (.compare op) right) :
      Mirrored (.design (String.ofList layout.text)) (.design (String.ofList (layout.mirror op).text))
  | inside (combinator : Combinator) (before after : List Condition) {child other : Condition}
      (inner : Mirrored child other) :
      Mirrored (.list combinator (before ++ child :: after)) (.list combinator (before ++ other :: after))

variable {context : Context} {names : Valuation} {maxDepth depth : Nat} {condition other : Condition}

theorem Mirrored.isBinding (mirrored : Mirrored condition other) :
    condition.isBinding = false ∧ other.isBinding = false := by
  cases mirrored <;> exact ⟨rfl, rfl⟩

theorem designHolds_mirror {layout : Expression.Layout} {left right : Operand} {op : Comparator}
    (parts : layout.Spells left (.compare op) right) :
    DesignHolds context names (String.ofList layout.text) ↔
      DesignHolds context names (String.ofList (layout.mirror op).text) := by
  rw [designHolds_iff (parts.spelled.parse (.comparison op)),
    designHolds_iff (parts.mirror.spelled.parse (.comparison op.swap))]
  constructor
  · rintro ⟨a, b, first, second, holds⟩
    exact ⟨b, a, second, first, a.compare_swap b op ▸ holds⟩
  · rintro ⟨b, a, second, first, holds⟩
    exact ⟨a, b, first, second, (a.compare_swap b op).symm ▸ holds⟩

theorem Mirrored.holds_iff (mirrored : Mirrored condition other) :
    condition.Holds maxDepth context names depth ↔ other.Holds maxDepth context names depth := by
  induction mirrored generalizing names depth with
  | here parts =>
    rw [Holds, Holds]
    exact designHolds_mirror parts
  | inside combinator before after inner ih =>
    obtain ⟨first, second⟩ := inner.isBinding
    exact holds_replace combinator before after first second fun names => ih

end Condition

namespace Analyzer

/-- Values compare as they do in the other order with the operator turned around, so a comparison may be written
either way: it has the same answer, up to which of two names is reported that are both not bound, and every rule that
it stands in has the same findings, whatever was evaluated before. -/
theorem compare_mirrored :
    (∀ (a b : Value) (op : Comparator), a.compare op b = b.compare op.swap a) ∧
    (∀ (layout : Expression.Layout) (left right : Operand) (op : Comparator),
      layout.Spells left (.compare op) right → ∀ (scope : Scope) (context : Context) (block : BlockId),
        scope.evaluate (String.ofList (layout.mirror op).text) context block =
            scope.evaluate (String.ofList layout.text) context block ∨
          ∃ name name', left.variableName? = some name ∧ right.variableName? = some name' ∧
            scope.evaluate (String.ofList layout.text) context block = .error (.unboundVariable name) ∧
            scope.evaluate (String.ofList (layout.mirror op).text) context block =
              .error (.unboundVariable name')) ∧
    ∀ (rule : Rule) (condition : Condition), rule.condition.Mirrored condition →
      ∀ (maxDepth : Nat) (diagram : Diagram) (threats : List Threat) (history history' : List Call),
        (((Analyzer.new maxDepth).after history').evaluate { rule with condition } diagram threats).1 =
          (((Analyzer.new maxDepth).after history).evaluate rule diagram threats).1 := by
  refine ⟨Value.compare_swap, ?_, ?_⟩
  · intro layout left right op parts scope context block
    exact Scope.evaluate_mirror parts.spelled parts.mirror.spelled
  · intro rule condition mirrored maxDepth diagram threats history history'
    rw [evaluate_after, evaluate_after]
    simp only [Rule.findings, Rule.Matches, mirrored.holds_iff]
    rfl

/-- The parts of `LOW <= HIGH.port`. -/
def rangeLayout : Expression.Layout :=
  ⟨[], "LOW".toList, [' '], "<=".toList, [' '], "HIGH.port".toList, []⟩

def rangeRule (comparison : String) : Rule :=
  ⟨"v1", "ThreatRule", ⟨"range", "Range", none, none, true⟩, "exposure", .process,
    .list .any [.binding "$.attached.flows = $HIGH", .list .all [.design comparison, .design "$.port == 80"]]⟩

theorem compare_mirrored_range :
    (Value.list [.json (.text "9"), .json .null]).compare .le (.json (.int 0)) =
        (Value.json (.int 0)).compare .ge (.list [.json (.text "9"), .json .null]) ∧
      rangeLayout.Spells (.named "LOW" []) (.compare .le) (.named "HIGH" ["port"]) ∧
      String.ofList rangeLayout.text = "LOW <= HIGH.port" ∧
      String.ofList (rangeLayout.mirror .le).text = "HIGH.port >= LOW" ∧
      (∀ (scope : Scope) (context : Context) (block : BlockId),
        scope.evaluate "HIGH.port >= LOW" context block = scope.evaluate "LOW <= HIGH.port" context block ∨
          ∃ name name', (Operand.named "LOW" []).variableName? = some name ∧
            (Operand.named "HIGH" ["port"]).variableName? = some name' ∧
            scope.evaluate "LOW <= HIGH.port" context block = .error (.unboundVariable name) ∧
            scope.evaluate "HIGH.port >= LOW" context block = .error (.unboundVariable name')) ∧
      (rangeRule "LOW <= HIGH.port").condition.Mirrored (rangeRule "HIGH.port >= LOW").condition ∧
      ∀ diagram threats, ((Analyzer.new 10).evaluate (rangeRule "HIGH.port >= LOW") diagram threats).1 =
        ((Analyzer.new 10).evaluate (rangeRule "LOW <= HIGH.port") diagram threats).1 := by
  have low : Expression.Spells "LOW".toList (.named "LOW" []) :=
    @Expression.Spells.named ['L', 'O', 'W'] [] [] ⟨by decide, List.all_eq_true.mp (by decide)⟩ .nil
  have port : Expression.Dotted ['.', 'p', 'o', 'r', 't'] ["port"] :=
    @Expression.Dotted.cons ['p', 'o', 'r', 't'] [] [] ⟨by decide, List.all_eq_true.mp (by decide)⟩ .nil
  have high : Expression.Spells "HIGH.port".toList (.named "HIGH" ["port"]) :=
    @Expression.Spells.named ['H', 'I', 'G', 'H'] _ _ ⟨by decide, List.all_eq_true.mp (by decide)⟩ port
  have blank : Expression.Blanks [' '] := List.forall_mem_singleton.mpr (by decide)
  have none : Expression.Blanks [] := List.forall_mem_nil _
  have parts : rangeLayout.Spells (.named "LOW" []) (.compare .le) (.named "HIGH" ["port"]) :=
    ⟨none, low, blank, rfl, blank, high, none⟩
  have written : String.ofList rangeLayout.text = "LOW <= HIGH.port" := by decide +kernel
  have turned : String.ofList (rangeLayout.mirror .le).text = "HIGH.port >= LOW" := by decide +kernel
  have mirrored := Condition.Mirrored.inside .any [.binding "$.attached.flows = $HIGH"] []
    (.inside .all [] [.design "$.port == 80"] (.here parts))
  have answers := compare_mirrored.2.1 _ _ _ _ parts
  rw [written, turned] at mirrored answers
  exact ⟨compare_mirrored.1 _ _ .le, parts, written, turned, answers, mirrored, fun diagram threats =>
    compare_mirrored.2.2 (rangeRule "LOW <= HIGH.port") _ mirrored 10 diagram threats [] []⟩

end Analyzer
end ThreatModel
