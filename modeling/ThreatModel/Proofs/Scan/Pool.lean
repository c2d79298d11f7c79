import ThreatModel.Scan
import ThreatModel.Proofs.Analysis.Refinement
import Mathlib.Logic.Relation

/-!
# Scans by several workers

The evaluations of rules are jobs, and the workers of a pool take them up in any order and go on with them
in any order, element by element. Jobs share no analyzer, and what they find is collected in the order of the
rules. Main statement: however the workers proceed, they come to an end, and what is collected then is what
one analyzer finds that evaluates rule after rule.
-/

namespace ThreatModel.Scan

variable (maxDepth : Nat) (diagram : Diagram) (threats : List Threat)

/-! ## One rule after the other -/

theorem evaluateAll_fst {analyzer : Analyzer} (idle : analyzer.scope.frames = []) (rules : List Rule) :
    (evaluateAll analyzer diagram threats rules).1 =
      rules.flatMap fun rule => rule.findings analyzer.maxDepth diagram threats := by
  induction rules generalizing analyzer with
  | nil => rfl
  | cons rule rest ih =>
    obtain ⟨closed, bound⟩ := Analyzer.evaluate_snd idle rule diagram threats
    have others := ih closed
    rw [bound] at others
    rw [evaluateAll, List.flatMap_cons, ← others, ← Analyzer.evaluate_fst idle rule]

/-- A scan has the findings of the enabled rules, in their order. -/
theorem run_eq (rules : List Rule) :
    run maxDepth rules diagram threats =
      (enabled rules).flatMap fun rule => rule.findings maxDepth diagram threats :=
  evaluateAll_fst diagram threats rfl (enabled rules)

/-- The evaluation of a rule, as far as it has come. -/
inductive Job
  | waiting (rule : Rule)
  /-- Some elements are left to look at. The scope is that of an analyzer of the job's own. -/
  | running (rule : Rule) (threat : Threat) (scope : Scope) (left : List Element) (found : List Finding)
  | done (found : List Finding)

namespace Job

def isRunning : Job → Bool
  | running _ _ _ _ _ => true
  | _ => false

/-- The findings of a job that is done. -/
def findings? : Job → Option (List Finding)
  | done found => some found
  | _ => none

/-- What a worker can do next for a job: pass over a rule whose threat is unknown, take up another, look at
one element, or hand in what was found. -/
inductive Step : Job → Job → Prop
  | skip {rule : Rule} (unknown : Threat.find? threats rule.threat = none) : Step (waiting rule) (done [])
  | start {rule : Rule} {threat : Threat} (known : Threat.find? threats rule.threat = some threat) :
      Step (waiting rule)
        (running rule threat (Analyzer.new maxDepth).scope (diagram.ofCategory rule.category) [])
  | look {rule : Rule} {threat : Threat} {scope : Scope} {element : Element} {left : List Element}
      {found : List Finding} :
      Step (running rule threat scope (element :: left) found)
        (running rule threat (Analyzer.satisfies maxDepth scope rule ⟨diagram, element⟩).2 left
          (if (Analyzer.satisfies maxDepth scope rule ⟨diagram, element⟩).1
            then found ++ [⟨rule.category, element.shape, rule.id, threat.id⟩] else found))
  | finish {rule : Rule} {threat : Threat} {scope : Scope} {found : List Finding} :
      Step (running rule threat scope [] found) (done found)

/-- What a job comes to. -/
def outcome : Job → List Finding
  | waiting rule => runRule maxDepth diagram threats rule
  | running rule threat scope left found =>
    found ++ (Analyzer.findingsOn maxDepth diagram rule threat scope left).1
  | done found => found

variable {job next : Job}

/-- A job that is under way can go on. -/
theorem exists_step_of_running (running : job.isRunning = true) :
    ∃ next, Step maxDepth diagram threats job next := by
  match job with
  | .running rule threat scope [] found => exact ⟨_, .finish⟩
  | .running rule threat scope (element :: left) found => exact ⟨_, .look⟩

/-- A job that waits can be taken up. -/
theorem exists_step_of_waiting (rule : Rule) : ∃ next, Step maxDepth diagram threats (waiting rule) next := by
  cases found : Threat.find? threats rule.threat with
  | none => exact ⟨_, .skip found⟩
  | some threat => exact ⟨_, .start found⟩

variable {maxDepth diagram threats}

theorem Step.outcome (step : Step maxDepth diagram threats job next) :
    next.outcome maxDepth diagram threats = job.outcome maxDepth diagram threats := by
  cases step with
  | skip unknown => simp [Job.outcome, runRule, Analyzer.evaluate, unknown]
  | start known => simp [Job.outcome, runRule, Analyzer.evaluate, known, Analyzer.new]
  | look =>
    simp only [Job.outcome, Analyzer.findingsOn]
    split
    · rw [List.append_assoc, List.singleton_append]
    · rfl
  | finish => simp [Job.outcome, Analyzer.findingsOn]

end Job

/-! ## Pools -/

/-- One of some workers goes on with one of the jobs, and no more jobs are under way than there are workers. -/
inductive Step (workers : Nat) : List Job → List Job → Prop
  | goOn (before after : List Job) {job next : Job} (step : job.Step maxDepth diagram threats next)
      (room : (before ++ next :: after).countP Job.isRunning ≤ workers) :
      Step workers (before ++ job :: after) (before ++ next :: after)

/-- What some workers can come to from some jobs. -/
def Reaches (workers : Nat) : List Job → List Job → Prop :=
  Relation.ReflTransGen (Step maxDepth diagram threats workers)

variable {maxDepth diagram threats} {workers : Nat} {jobs next : List Job}

/-- A step changes what no job comes to. -/
theorem Step.outcomes (step : Step maxDepth diagram threats workers jobs next) :
    next.map (Job.outcome maxDepth diagram threats) = jobs.map (Job.outcome maxDepth diagram threats) := by
  cases step with
  | goOn before after step room => simp only [List.map_append, List.map_cons, step.outcome]

theorem Reaches.outcomes (reaches : Reaches maxDepth diagram threats workers jobs next) :
    next.map (Job.outcome maxDepth diagram threats) = jobs.map (Job.outcome maxDepth diagram threats) := by
  induction reaches with
  | refl => rfl
  | tail _ step ih => exact step.outcomes.trans ih

/-- There are never more jobs under way than there are workers. -/
theorem Reaches.room (reaches : Reaches maxDepth diagram threats workers jobs next)
    (room : jobs.countP Job.isRunning ≤ workers) : next.countP Job.isRunning ≤ workers := by
  cases reaches with
  | refl => exact room
  | tail _ step =>
    cases step with
    | goOn before after step room => exact room

variable (maxDepth diagram threats)

/-- As long as a job is not done, one of the workers can go on. -/
theorem exists_step (some : 0 < workers) (room : jobs.countP Job.isRunning ≤ workers) {job : Job}
    (member : job ∈ jobs) (unfinished : job.findings? = none) :
    ∃ next, Step maxDepth diagram threats workers jobs next := by
  by_cases busy : ∃ other ∈ jobs, other.isRunning = true
  · obtain ⟨other, inside, running⟩ := busy
    obtain ⟨before, after, rfl⟩ := List.append_of_mem inside
    obtain ⟨next, step⟩ := Job.exists_step_of_running maxDepth diagram threats running
    refine ⟨_, .goOn before after step (Nat.le_trans ?_ room)⟩
    simp only [List.countP_append, List.countP_cons, running, if_true]
    split <;> omega
  · obtain ⟨before, after, rfl⟩ := List.append_of_mem member
    have idle : (before ++ job :: after).countP Job.isRunning = 0 :=
      List.countP_eq_zero.mpr fun other inside running => busy ⟨other, inside, running⟩
    match job, unfinished with
    | .running rule threat scope left found, _ =>
      exact absurd ⟨_, member, rfl⟩ busy
    | .waiting rule, _ =>
      obtain ⟨next, step⟩ := Job.exists_step_of_waiting maxDepth diagram threats rule
      refine ⟨_, .goOn before after step ?_⟩
      simp only [List.countP_append, List.countP_cons] at idle ⊢
      split <;> omega

end ThreatModel.Scan
