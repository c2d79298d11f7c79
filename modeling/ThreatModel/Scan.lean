import ThreatModel.Analysis

/-!
# Scans

A scan evaluates the enabled rules in order. One analyzer may serve them all, or each rule may have its
own, so that rules can be evaluated at the same time; the findings are in the order of the rules either
way.
-/

namespace ThreatModel.Scan

/-- The rules that take part in a scan. -/
def enabled (rules : List Rule) : List Rule := rules.filter Rule.isEnabled

/-- The findings of rules that share an analyzer, and the analyzer after. -/
def evaluateAll (analyzer : Analyzer) (diagram : Diagram) (threats : List Threat) :
    List Rule → List Finding × Analyzer
  | [] => ([], analyzer)
  | rule :: rest =>
    let (findings, analyzer) := analyzer.evaluate rule diagram threats
    let (more, analyzer) := evaluateAll analyzer diagram threats rest
    (findings ++ more, analyzer)

/-- The findings of the enabled rules, one analyzer serving all. -/
def run (maxDepth : Nat) (rules : List Rule) (diagram : Diagram) (threats : List Threat) : List Finding :=
  (evaluateAll (.new maxDepth) diagram threats (enabled rules)).1

/-- The findings of one rule, evaluated on its own. -/
def runRule (maxDepth : Nat) (diagram : Diagram) (threats : List Threat) (rule : Rule) : List Finding :=
  ((Analyzer.new maxDepth).evaluate rule diagram threats).1

/-- The findings of the enabled rules, each with an analyzer of its own. -/
def runApart (maxDepth : Nat) (rules : List Rule) (diagram : Diagram) (threats : List Threat) :
    List Finding :=
  (enabled rules).flatMap (runRule maxDepth diagram threats)

end ThreatModel.Scan
