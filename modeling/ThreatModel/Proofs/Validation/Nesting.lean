import ThreatModel.Proofs.Analysis.Allocation
import ThreatModel.Proofs.Analysis.Record
import ThreatModel.Proofs.Validation.Repair
import ThreatModel.Proofs.Validation.Site

/-!
# Lists that are nested too deep

The depth of a condition is counted from its leaves, the nesting of a list from the outside, by validation and by
evaluation each on its own. Main statement: they agree. Validation warns once of every list just beyond the bound and
of nothing inside it, evaluation passes over the same lists on every element, and both do so exactly if the condition
is deeper than the bound.
-/

namespace ThreatModel

namespace Condition

/-- The lists of a condition whose nesting exceeds a bound by one, in the order of the document. -/
def listsBeyond (maxDepth : Nat) (condition : Condition) : List Site :=
  condition.sites.filter (Site.isListAt (maxDepth + 1))

variable {maxDepth depth index nesting : Nat} {place : Place} {condition : Condition} {children : List Condition}
  {site : Site}

/-! ## Depth -/

theorem lt_depthOf_iff : nesting < depthOf children ↔ ∃ child ∈ children, nesting < child.depth := by
  induction children with
  | nil => simp [depthOf]
  | cons child rest ih => rw [depthOf, lt_max_iff, ih, List.exists_mem_cons_iff]

/-- A condition is deeper than a number exactly if it has a list inside so many others. -/
theorem exists_isListAt_iff :
    (∃ site ∈ condition.sitesFrom place depth, site.isListAt (depth + nesting + 1) = true) ↔
      nesting < condition.depth := by
  induction condition using Condition.induction generalizing place depth nesting with
  | design expression => simp [sitesFrom, Site.isListAt, Condition.depth]
  | binding expression => simp [sitesFrom, Site.isListAt, Condition.depth]
  | list combinator children ih =>
    rw [sitesFrom, List.exists_mem_cons_iff, Condition.depth]
    cases nesting with
    | zero => simp [Site.isListAt]
    | succ nesting =>
      have outer : (⟨place ++ [.key combinator.key], depth + 1, list combinator children⟩ : Site).isListAt
          (depth + (nesting + 1) + 1) = false := by simp [Site.isListAt]
      rw [outer, Nat.add_lt_add_iff_right, lt_depthOf_iff, ← Nat.succ_add_eq_add_succ depth nesting]
      constructor
      · rintro (absurd | ⟨site, member, found⟩)
        · cases absurd
        · obtain ⟨i, child, at_i, inside⟩ := mem_sitesOf.mp member
          exact ⟨child, List.mem_of_getElem? at_i, (ih child (List.mem_of_getElem? at_i)).mp ⟨site, inside, found⟩⟩
      · rintro ⟨child, member, deeper⟩
        obtain ⟨i, at_i⟩ := List.mem_iff_getElem?.mp member
        obtain ⟨site, inside, found⟩ := (ih child member).mpr deeper
        exact .inr ⟨site, mem_sitesOf.mpr ⟨i, child, at_i, inside⟩, found⟩

/-- A list in a list at `depth` is nested deeper. -/
theorem lt_of_isListAt (member : site ∈ condition.sitesFrom place depth) (found : site.isListAt nesting = true) :
    depth < nesting := by
  induction condition using Condition.induction generalizing place depth with
  | design expression =>
    cases List.mem_singleton.mp (by rwa [sitesFrom] at member)
    cases found
  | binding expression =>
    cases List.mem_singleton.mp (by rwa [sitesFrom] at member)
    cases found
  | list combinator children ih =>
    rw [sitesFrom] at member
    rcases List.mem_cons.mp member with rfl | inside
    · simp only [Site.isListAt, decide_eq_true_eq] at found
      omega
    · obtain ⟨i, child, at_i, inner⟩ := mem_sitesOf.mp inside
      exact Nat.lt_of_succ_lt (ih child (List.mem_of_getElem? at_i) inner)

/-- In a list just beyond the bound there is no other. -/
theorem filter_sitesOf_beyond :
    (sitesOf place (maxDepth + 1) index children).filter (Site.isListAt (maxDepth + 1)) = [] := by
  rw [List.filter_eq_nil_iff]
  intro site member found
  obtain ⟨i, child, -, inside⟩ := mem_sitesOf.mp member
  exact Nat.lt_irrefl _ (lt_of_isListAt inside found)

/-- The lists just beyond the bound in a list that has some nesting. -/
theorem filter_sites_list (combinator : Combinator) :
    ((list combinator children).sitesFrom place depth).filter (Site.isListAt (maxDepth + 1)) =
      if depth = maxDepth then [⟨place ++ [.key combinator.key], depth + 1, list combinator children⟩]
      else (sitesOf (place ++ [.key combinator.key]) (depth + 1) 0 children).filter (Site.isListAt (maxDepth + 1)) := by
  rw [sitesFrom, List.filter_cons]
  by_cases same : depth = maxDepth
  · subst same
    simp [Site.isListAt, filter_sitesOf_beyond]
  · simp [Site.isListAt, same]

/-! ## The number of lists -/

theorem mem_nestingsOf : nesting ∈ nestingsOf depth children ↔ ∃ child ∈ children, nesting ∈ child.nestings depth := by
  induction children with
  | nil => simp [nestingsOf]
  | cons child rest ih => rw [nestingsOf, List.mem_append, ih, List.exists_mem_cons_iff]

theorem mem_nestings_iff : nesting ∈ condition.nestings (depth + 1) ↔
    ∃ site ∈ condition.sitesFrom place depth, site.isListAt nesting = true := by
  induction condition using Condition.induction generalizing place depth with
  | design expression => simp [nestings, sitesFrom, Site.isListAt]
  | binding expression => simp [nestings, sitesFrom, Site.isListAt]
  | list combinator children ih =>
    rw [nestings, List.mem_cons, mem_nestingsOf, sitesFrom, List.exists_mem_cons_iff]
    refine or_congr (by simp [Site.isListAt, eq_comm]) ?_
    constructor
    · rintro ⟨child, member, deeper⟩
      obtain ⟨i, at_i⟩ := List.mem_iff_getElem?.mp member
      obtain ⟨site, inside, found⟩ := (ih child member).mp deeper
      exact ⟨site, mem_sitesOf.mpr ⟨i, child, at_i, inside⟩, found⟩
    · rintro ⟨site, member, found⟩
      obtain ⟨i, child, at_i, inside⟩ := mem_sitesOf.mp member
      have member := List.mem_of_getElem? at_i
      exact ⟨child, member, (ih child member).mpr ⟨site, inside, found⟩⟩

/-- Some list is nested too deep exactly if the condition is deeper than the bound. -/
theorem shallowLists_lt_iff :
    condition.shallowLists maxDepth < (condition.nestings 1).length ↔ maxDepth < condition.depth := by
  have deeper : ∀ bound, bound + 1 ∈ condition.nestings 1 ↔ bound < condition.depth := by
    intro bound
    rw [← @exists_isListAt_iff 0 bound [] condition, Nat.zero_add, ← mem_nestings_iff]
  rw [shallowLists, List.countP_le_length.lt_iff_ne, Ne, List.countP_eq_length]
  constructor
  · intro some
    by_contra shallow
    apply some
    intro nesting member
    by_contra exceeds
    rw [decide_eq_true_eq] at exceeds
    obtain ⟨bound, rfl⟩ : ∃ bound, nesting = bound + 1 := ⟨nesting - 1, by omega⟩
    have within := (deeper bound).mp member
    omega
  · intro exceeds all
    have within := all (maxDepth + 1) ((deeper maxDepth).mpr exceeds)
    simp at within

end Condition

open Condition (Site sitesFrom sitesOf)

/-- What is said of a comparison or of a binding is not said of a list. -/
theorem Problem.IsOf.not_condemnsList {part : Condition} {problem : Problem} (of : problem.IsOf part)
    (leaf : ∀ combinator children, part ≠ .list combinator children) : problem.condemnsList = false := by
  cases part with
  | list combinator children => exact absurd rfl (leaf combinator children)
  | design expression =>
    cases problem
    case tooDeep => exact False.elim of
    all_goals rfl
  | binding expression =>
    cases problem
    case tooDeep => exact False.elim of
    all_goals rfl

namespace Validation

variable {maxDepth depth index : Nat} {place : Place} {bound : List String} {condition : Condition}
  {children : List Condition} {diagnostic : Diagnostic}

/-! ## Warnings -/

/-- The warning of a list just beyond the bound. -/
def beyond (maxDepth : Nat) (site : Site) : Diagnostic := ⟨site.place, .tooDeep (maxDepth + 1) maxDepth⟩

theorem filter_designProblems (expression : String) :
    (designProblems bound place expression).filter (·.problem.condemnsList) = [] := by
  rw [List.filter_eq_nil_iff]
  intro diagnostic member
  simp [(mem_designProblems member).2.not_condemnsList (by simp)]

theorem filter_bindingsProblems :
    (bindingsProblems place bound index children).1.filter (·.problem.condemnsList) = [] := by
  rw [List.filter_eq_nil_iff]
  intro diagnostic member
  obtain ⟨i, expression, -, -, of⟩ := mem_bindingsProblems member
  simp [of.not_condemnsList (by simp)]

mutual
theorem filter_childProblems {depth : Nat} (within : depth ≤ maxDepth) (condition : Condition) (place : Place)
    (bound : List String) :
    (childProblems maxDepth place depth bound condition).filter (·.problem.condemnsList) =
      ((condition.sitesFrom place depth).filter (Site.isListAt (maxDepth + 1))).map (beyond maxDepth) := by
  cases condition with
  | design expression =>
    rw [childProblems, filter_designProblems, sitesFrom]
    rfl
  | binding expression =>
    rw [childProblems, sitesFrom]
    rfl
  | list combinator children =>
    rw [childProblems, Condition.filter_sites_list]
    by_cases same : depth = maxDepth
    · subst same
      simp only [Nat.lt_succ_self, if_true]
      rfl
    · have shallow : ¬ maxDepth < depth + 1 := by omega
      let here := place ++ [.key combinator.key]
      have inner := @filter_childrenProblems (depth + 1) 0 (Nat.not_lt.mp shallow) children here
        (bindingsProblems here bound 0 children).2
      have empty := @filter_emptyList (·.problem.condemnsList) here rfl children
      have barren := @filter_barrenProblems (·.problem.condemnsList) here rfl children
      simp only [if_neg shallow, if_neg same, List.filter_append, filter_bindingsProblems]
      simp only [here] at inner empty barren
      rw [empty, barren, inner, List.nil_append, List.nil_append, List.append_nil]

theorem filter_childrenProblems {depth index : Nat} (within : depth ≤ maxDepth) (children : List Condition)
    (place : Place) (bound : List String) :
    (childrenProblems maxDepth place depth bound index children).filter (·.problem.condemnsList) =
      ((sitesOf place depth index children).filter (Site.isListAt (maxDepth + 1))).map (beyond maxDepth) := by
  cases children with
  | nil =>
    rw [childrenProblems, sitesOf]
    rfl
  | cons child rest =>
    rw [childrenProblems, sitesOf, List.filter_append, List.filter_append, List.map_append,
      filter_childProblems within child, filter_childrenProblems within rest]
end

/-- All that is said of a list just beyond the bound, or of what is inside it, is that it is nested too deep. -/
theorem eq_beyond {site : Site} (member : site ∈ condition.sitesFrom place depth) (within : depth ≤ maxDepth)
    (found : site.isListAt (maxDepth + 1) = true)
    (reported : diagnostic ∈ childProblems maxDepth place depth bound condition)
    (inside : site.place <+: diagnostic.place) : diagnostic = beyond maxDepth site := by
  induction condition using Condition.induction generalizing place depth bound with
  | design expression =>
    cases List.mem_singleton.mp (by rwa [sitesFrom] at member)
    cases found
  | binding expression =>
    rw [childProblems] at reported
    cases reported
  | list combinator children ih =>
    rw [sitesFrom] at member
    by_cases deep : maxDepth < depth + 1
    · rw [childProblems] at reported
      simp only [if_pos deep, List.mem_singleton] at reported
      have same : depth = maxDepth := by omega
      subst same
      rcases List.mem_cons.mp member with rfl | inner
      · exact reported
      · obtain ⟨i, child, -, inner⟩ := Condition.mem_sitesOf.mp inner
        exact absurd (Condition.lt_of_isListAt inner found) (Nat.lt_irrefl _)
    · rcases List.mem_cons.mp member with rfl | inner
      · simp only [Site.isListAt, decide_eq_true_eq] at found
        omega
      · obtain ⟨i, child, at_i, inner⟩ := Condition.mem_sitesOf.mp inner
        have here := (Condition.prefix_of_mem_sites inner).trans inside
        rcases mem_listProblems deep reported with ⟨stands, -⟩ | bindings | conditions
        · have longer := here.length_le
          simp [stands] at longer
        · -- A binding has no lists in it.
          obtain ⟨j, expression, at_j, stands, -⟩ := mem_bindingsProblems bindings
          have there : place ++ [.key combinator.key] ++ [.index (0 + j)] <+: diagnostic.place :=
            ⟨[.key "variable"], by rw [stands, List.append_assoc]; rfl⟩
          have same := index_unique here there
          rw [Nat.zero_add, Nat.zero_add] at same
          rw [← same, at_i] at at_j
          cases at_j
          cases List.mem_singleton.mp (by rwa [sitesFrom] at inner)
          cases found
        · obtain ⟨j, child', at_j, reported⟩ := mem_childrenProblems conditions
          have same := index_unique here (below_childProblems child' reported).place
          rw [Nat.zero_add, Nat.zero_add] at same
          subst same
          rw [at_i] at at_j
          cases at_j
          exact ih child (List.mem_of_getElem? at_i) inner (Nat.not_lt.mp deep) reported

end Validation

namespace Analyzer

/-! ## Evaluation -/

/-- The depth of a list that is passed over. -/
def Event.cutDepth? : Event → Option Nat
  | .cut depth => some depth
  | _ => none

variable (maxDepth : Nat) (context : Context)

theorem cuts_recordBindings (block : BlockId) (scope : Scope) (children : List Condition) :
    (recordBindings context block scope children).events.filterMap Event.cutDepth? = [] := by
  induction children generalizing scope with
  | nil => rfl
  | cons child rest ih =>
    cases child with
    | list combinator children => exact ih scope
    | design expression => exact ih scope
    | binding expression =>
      rw [recordBindings]
      split
      · exact ih _
      · exact ih scope

theorem cuts_recordDesign (scope : Scope) (block : BlockId) (expression : String) :
    (recordDesign context scope block expression).events.filterMap Event.cutDepth? = [] := by
  unfold recordDesign
  split <;> rfl

mutual
/-- Whatever the element and the scope are, evaluation passes over the lists just beyond the bound and no others. -/
theorem cuts_recordCondition {depth : Nat} (within : depth ≤ maxDepth) (block : BlockId) (scope : Scope)
    (condition : Condition) (place : Place) :
    (recordCondition maxDepth context block depth scope condition).events.filterMap Event.cutDepth? =
      ((condition.sitesFrom place depth).filter (Site.isListAt (maxDepth + 1))).map Site.nesting := by
  cases condition with
  | design expression =>
    rw [recordCondition, cuts_recordDesign, sitesFrom]
    rfl
  | binding expression =>
    rw [recordCondition, sitesFrom]
    rfl
  | list combinator children =>
    rw [recordCondition, Condition.filter_sites_list]
    by_cases same : depth = maxDepth
    · subst same
      simp only [Nat.lt_succ_self, if_true]
      rfl
    · have shallow : ¬ maxDepth < depth + 1 := by omega
      simp only [if_neg shallow, if_neg same, List.filterMap_append, cuts_recordBindings, List.nil_append]
      exact cuts_recordConditions (Nat.not_lt.mp shallow) _ _ children _ 0

theorem cuts_recordConditions {depth : Nat} (within : depth ≤ maxDepth) (block : BlockId) (scope : Scope)
    (children : List Condition) (place : Place) (index : Nat) :
    (recordConditions maxDepth context block depth scope children).events.filterMap Event.cutDepth? =
      ((sitesOf place depth index children).filter (Site.isListAt (maxDepth + 1))).map Site.nesting := by
  cases children with
  | nil =>
    rw [recordConditions, sitesOf]
    rfl
  | cons child rest =>
    rw [recordConditions, sitesOf, List.filter_append, List.map_append]
    split
    · rename_i binding
      obtain ⟨expression, rfl⟩ := Validation.eq_binding binding
      rw [cuts_recordConditions within block scope rest place (index + 1), sitesFrom]
      rfl
    · rw [List.filterMap_append, cuts_recordCondition within, cuts_recordConditions within]
end

theorem cuts_recordElement (scope : Scope) (rule : Rule) :
    (recordElement maxDepth context scope rule).events.filterMap Event.cutDepth? =
      (rule.condition.listsBeyond maxDepth).map Site.nesting :=
  cuts_recordCondition maxDepth context (Nat.zero_le maxDepth) _ _ rule.condition []

end Analyzer

namespace Validation
open Analyzer

/-! ## Rules -/

variable {maxDepth : Nat}

theorem filter_conditionProblems (condition : Condition) :
    (conditionProblems maxDepth condition).filter (·.problem.condemnsList) =
      (condition.listsBeyond maxDepth).map (beyond maxDepth) := by
  cases condition with
  | binding expression => rfl
  | design expression => exact filter_childProblems (Nat.zero_le maxDepth) (.design expression) [] []
  | list combinator children => exact filter_childProblems (Nat.zero_le maxDepth) (.list combinator children) [] []

theorem filter_ruleProblems (threats : List Threat) (rule : Rule) :
    (ruleProblems maxDepth threats rule).filter (·.problem.condemnsList) =
      (rule.condition.listsBeyond maxDepth).map (beyond maxDepth) := by
  have apart : ∀ diagnostic : Diagnostic, diagnostic.problem.concernsCondition = false →
      ¬ diagnostic.problem.condemnsList = true := by
    intro diagnostic other condemns
    rw [concerns_of_condemns (.inl condemns)] at other
    cases other
  have header : (headerProblems .rule .oddRuleId rule.apiVersion rule.kind rule.header).filter
      (·.problem.condemnsList) = [] :=
    List.filter_eq_nil_iff.mpr fun diagnostic member => apart diagnostic (mem_headerProblems member).1
  have threat : (threatProblems threats rule.threat).filter (·.problem.condemnsList) = [] :=
    List.filter_eq_nil_iff.mpr fun diagnostic member => apart diagnostic (mem_threatProblems member).1
  simp only [ruleProblems, List.filter_append, header, threat, filter_conditionProblems, List.nil_append]

theorem filter_warningsIn (diagnostics : List Diagnostic) :
    (warningsIn diagnostics).filter (·.problem.condemnsList) = diagnostics.filter (·.problem.condemnsList) := by
  rw [warningsIn, List.filter_filter]
  congr 1
  funext diagnostic
  unfold Diagnostic.isError
  cases diagnostic.problem <;> rfl

theorem exists_mem_listsBeyond_iff {condition : Condition} :
    (∃ site, site ∈ condition.listsBeyond maxDepth) ↔ maxDepth < condition.depth := by
  rw [← @Condition.exists_isListAt_iff 0 maxDepth [] condition, Nat.zero_add]
  simp only [Condition.listsBeyond, Condition.sites, List.mem_filter]

/-- What points to a list just beyond the bound or into it is the warning of the list. -/
theorem eq_beyond_of_mem {condition : Condition} {site : Site} (member : site ∈ condition.listsBeyond maxDepth)
    {diagnostic : Diagnostic} (reported : diagnostic ∈ conditionProblems maxDepth condition)
    (inside : site.place <+: diagnostic.place) : diagnostic = beyond maxDepth site := by
  obtain ⟨member, found⟩ := List.mem_filter.mp member
  cases condition with
  | binding expression =>
    rw [Condition.sites, sitesFrom] at member
    cases List.mem_singleton.mp member
    cases found
  | design expression => exact eq_beyond member (Nat.zero_le maxDepth) found reported inside
  | list combinator children => exact eq_beyond member (Nat.zero_le maxDepth) found reported inside

theorem exists_tooDeep_iff (threats : List Threat) (rule : Rule) :
    (∃ diagnostic ∈ ruleProblems maxDepth threats rule, diagnostic.problem.condemnsList = true) ↔
      maxDepth < rule.condition.depth := by
  have flagged := @filter_ruleProblems maxDepth threats rule
  rw [← exists_mem_listsBeyond_iff]
  constructor
  · rintro ⟨diagnostic, reported, condemns⟩
    have member : diagnostic ∈ (ruleProblems maxDepth threats rule).filter (·.problem.condemnsList) :=
      List.mem_filter.mpr ⟨reported, condemns⟩
    rw [flagged] at member
    obtain ⟨site, member, -⟩ := List.mem_map.mp member
    exact ⟨site, member⟩
  · rintro ⟨site, member⟩
    have warned := List.mem_map_of_mem (f := beyond maxDepth) member
    rw [← flagged] at warned
    exact ⟨_, List.mem_filter.mp warned⟩

theorem exists_cut_iff (context : Context) (scope : Scope) (rule : Rule) :
    (∃ depth, Event.cut depth ∈ (recordElement maxDepth context scope rule).events) ↔
      maxDepth < rule.condition.depth := by
  have cuts := cuts_recordElement maxDepth context scope rule
  rw [← exists_mem_listsBeyond_iff]
  constructor
  · rintro ⟨depth, met⟩
    have member := List.mem_filterMap.mpr ⟨_, met, show Event.cutDepth? (.cut depth) = some depth from rfl⟩
    rw [cuts] at member
    obtain ⟨site, member, -⟩ := List.mem_map.mp member
    exact ⟨site, member⟩
  · rintro ⟨site, member⟩
    have passed := List.mem_map_of_mem (f := Site.nesting) member
    rw [← cuts] at passed
    obtain ⟨event, met, depth⟩ := List.mem_filterMap.mp passed
    cases event
    case cut => exact ⟨_, met⟩
    all_goals cases depth

/-- Validation, evaluation and the depth of a rule agree on what is nested too deep. Validation warns once of each list
just beyond the bound, which have places of their own, and says nothing else of them or of what is in them. On every
element, whatever was evaluated before, evaluation passes over these lists and opens fewer blocks than the rule has
lists. Both happen exactly if the condition is deeper than the bound. -/
theorem nesting_agrees (maxDepth : Nat) (threats : List Threat) (rule : Rule) :
    ((warningsIn (ruleProblems maxDepth threats rule)).filter (·.problem.condemnsList) =
        (rule.condition.listsBeyond maxDepth).map (beyond maxDepth) ∧
      (rule.condition.sites.map Site.place).Nodup ∧
      ∀ site ∈ rule.condition.listsBeyond maxDepth, ∀ diagnostic ∈ conditionProblems maxDepth rule.condition,
        site.place <+: diagnostic.place → diagnostic = beyond maxDepth site) ∧
    ((∃ diagnostic ∈ ruleProblems maxDepth threats rule, diagnostic.problem.condemnsList = true) ↔
      maxDepth < rule.condition.depth) ∧
    ∀ (context : Context) (scope : Scope),
      (recordElement maxDepth context scope rule).value = satisfies maxDepth scope rule context ∧
      (recordElement maxDepth context scope rule).events.filterMap Event.cutDepth? =
        (rule.condition.listsBeyond maxDepth).map Site.nesting ∧
      ((∃ depth, Event.cut depth ∈ (recordElement maxDepth context scope rule).events) ↔
        maxDepth < rule.condition.depth) ∧
      ((satisfies maxDepth scope rule context).2.allocated <
          scope.allocated + (1 + (rule.condition.nestings 1).length) ↔ maxDepth < rule.condition.depth) := by
  refine ⟨⟨?_, Condition.nodup_places rule.condition [] 0, ?_⟩, exists_tooDeep_iff threats rule, ?_⟩
  · rw [filter_warningsIn, filter_ruleProblems]
  · intro site member diagnostic reported inside
    exact eq_beyond_of_mem member reported inside
  · intro context scope
    refine ⟨recordElement_value maxDepth context scope rule, cuts_recordElement maxDepth context scope rule,
      exists_cut_iff context scope rule, ?_⟩
    rw [allocated_satisfies, Nat.add_lt_add_iff_left, Nat.add_lt_add_iff_left, Condition.shallowLists_lt_iff]

end Validation
end ThreatModel
