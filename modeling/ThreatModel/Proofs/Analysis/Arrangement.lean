import Mathlib.Data.List.Perm.Basic
import ThreatModel.Proofs.Analysis.Refinement

/-!
# The order of conditions

The bindings of a list are made before its conditions are looked at, and all of them are looked at before they are
combined. Main statement: the findings of a rule stay the same if a list of it is put into another order that keeps
the order of its bindings, however deep the list stands.
-/

namespace ThreatModel

namespace Condition

/-- One list in a condition, the outermost or one inside, is put into another order, its bindings being in the order
in which they were. -/
inductive Rearranged : Condition → Condition → Prop
  | here (combinator : Combinator) {children others : List Condition} (order : children.Perm others)
      (bindings : children.filter isBinding = others.filter isBinding) :
      Rearranged (.list combinator children) (.list combinator others)
  | inside (combinator : Combinator) (before after : List Condition) {child other : Condition}
      (inner : Rearranged child other) :
      Rearranged (.list combinator (before ++ child :: after)) (.list combinator (before ++ other :: after))

variable {context : Context} {names : Valuation} {maxDepth depth : Nat} {condition other : Condition}

theorem Rearranged.isBinding (rearranged : Rearranged condition other) :
    condition.isBinding = false ∧ other.isBinding = false := by
  cases rearranged <;> exact ⟨rfl, rfl⟩

/-! ## Bindings -/

/-- The bindings of a list are all that its conditions add to the names. -/
theorem bindAll_filter (names : Valuation) (children : List Condition) :
    names.bindAll context (children.filter Condition.isBinding) = names.bindAll context children := by
  induction children generalizing names with
  | nil => rfl
  | cons child rest ih =>
    cases child with
    | list combinator inner => exact ih names
    | design expression => exact ih names
    | binding expression => exact ih (names.bind context expression)

theorem bindAll_replace (before after : List Condition) (first : condition.isBinding = false)
    (second : other.isBinding = false) :
    names.bindAll context (before ++ condition :: after) = names.bindAll context (before ++ other :: after) := by
  rw [← bindAll_filter names (before ++ condition :: after), ← bindAll_filter names (before ++ other :: after),
    List.filter_append, List.filter_append, List.filter_cons_of_neg (by simp [first]),
    List.filter_cons_of_neg (by simp [second])]

/-! ## Meaning -/

/-- In a list, a condition may be replaced by one that holds with the same values of names. -/
theorem holds_replace (combinator : Combinator) (before after : List Condition) (first : condition.isBinding = false)
    (second : other.isBinding = false)
    (same : ∀ names, condition.Holds maxDepth context names (depth + 1) ↔
      other.Holds maxDepth context names (depth + 1)) :
    (list combinator (before ++ condition :: after)).Holds maxDepth context names depth ↔
      (list combinator (before ++ other :: after)).Holds maxDepth context names depth := by
  cases combinator with
  | all =>
    rw [holds_all, holds_all, bindAll_replace before after first second]
    simp only [List.forall_mem_append, List.forall_mem_cons, first, second, same]
  | any =>
    rw [holds_any, holds_any, bindAll_replace before after first second]
    simp only [List.mem_append, List.mem_cons, or_and_right, exists_or, exists_eq_left, first, second, same]

/-- A condition holds in every arrangement or in none: its lists bind the same names, and look at the same
conditions with them. -/
theorem Rearranged.holds_iff (rearranged : Rearranged condition other) :
    condition.Holds maxDepth context names depth ↔ other.Holds maxDepth context names depth := by
  induction rearranged generalizing names depth with
  | here combinator order bindings =>
    rename_i children others
    -- The bindings are made before any condition is looked at, so their order among the others is of no account.
    have bound : names.bindAll context children = names.bindAll context others := by
      rw [← bindAll_filter, bindings, bindAll_filter]
    cases combinator with
    | all => simp only [holds_all, bound, order.mem_iff]
    | any => simp only [holds_any, bound, order.mem_iff]
  | inside combinator before after inner ih =>
    obtain ⟨first, second⟩ := inner.isBinding
    exact holds_replace combinator before after first second fun names => ih

end Condition

namespace Analyzer

/-- A rule has the same findings in every arrangement of any of its lists that keeps the order of its bindings, whatever
was evaluated before either. -/
theorem evaluate_rearranged {rule : Rule} {condition : Condition} (rearranged : rule.condition.Rearranged condition)
    (maxDepth : Nat) (diagram : Diagram) (threats : List Threat) (history history' : List Call) :
    (((Analyzer.new maxDepth).after history').evaluate { rule with condition } diagram threats).1 =
      (((Analyzer.new maxDepth).after history).evaluate rule diagram threats).1 := by
  rw [evaluate_after, evaluate_after]
  simp only [Rule.findings, Rule.Matches, rearranged.holds_iff]
  rfl

def spread : List Condition :=
  [.design "PORT == 80", .binding "$.user = $USER", .list .any [.design "USER == 'root'"]]

/-- The list that reads a name comes first, and the binding of the name last. -/
def gathered : List Condition :=
  [.list .any [.design "USER == 'root'"], .design "PORT == 80", .binding "$.user = $USER"]

def portRule (inner : List Condition) : Rule :=
  ⟨"v1", "ThreatRule", ⟨"port", "Port", none, none, true⟩, "exposure", .process,
    .list .any [.binding "$.port = $PORT", .list .all inner, .binding "80 = $PORT"]⟩

theorem evaluate_rearranged_inner :
    (portRule spread).condition.Rearranged (portRule gathered).condition ∧
    ∀ diagram threats, ((Analyzer.new 10).evaluate (portRule gathered) diagram threats).1 =
      ((Analyzer.new 10).evaluate (portRule spread) diagram threats).1 := by
  have rearranged : (portRule spread).condition.Rearranged (portRule gathered).condition :=
    .inside .any [_] [_] (.here .all (by decide) (by decide))
  exact ⟨rearranged, fun diagram threats => evaluate_rearranged rearranged 10 diagram threats [] []⟩

end Analyzer
end ThreatModel
