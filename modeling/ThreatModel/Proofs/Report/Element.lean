import ThreatModel.Proofs.Identity
import ThreatModel.Proofs.Report.Counting
import ThreatModel.Proofs.Scan.Pool
import Mathlib.Data.List.Forall2

/-!
# The elements of a report

A finding has the category and the shape of an element, and the report looks the element up by them. Main statement:
the rows of a rule stand for the elements that satisfy it, in the order of the diagram, but each names the first
element of the diagram with that category and shape; so the report names the elements that were found exactly if
each of them is the first of its kind.
-/

namespace ThreatModel

/-! ## Looking an element up -/

namespace Diagram

variable {diagram : Diagram} {element first : Element}

/-- The first element of a diagram with the category and the shape of an element. -/
def Foremost (diagram : Diagram) (element first : Element) : Prop :=
  ∃ before after, diagram.elements = before ++ first :: after ∧
    (first.category = element.category ∧ first.shape = element.shape) ∧
    ∀ other ∈ before, ¬ (other.category = element.category ∧ other.shape = element.shape)

theorem find?_ofCategory {category : Category} {shape : String} :
    (diagram.ofCategory category).find? (·.shape = shape) =
      diagram.elements.find? fun e => e.category = category ∧ e.shape = shape := by
  rw [ofCategory, List.find?_filter]
  simp only [decide_eq_true_eq]

theorem find?_eq_some_iff_foremost :
    (diagram.ofCategory element.category).find? (·.shape = element.shape) = some first ↔
      diagram.Foremost element first := by
  rw [find?_ofCategory]
  exact find?_eq_some_iff_isFirst

theorem exists_foremost (member : element ∈ diagram.elements) : ∃ first, diagram.Foremost element first := by
  have known : ((diagram.ofCategory element.category).find? (·.shape = element.shape)).isSome := by
    rw [List.find?_isSome]
    exact ⟨element, List.mem_filter.mpr ⟨member, by simp⟩, by simp⟩
  obtain ⟨first, found⟩ := Option.isSome_iff_exists.mp known
  exact ⟨first, find?_eq_some_iff_foremost.mp found⟩

theorem Foremost.unique {other : Element} (one : diagram.Foremost element first)
    (two : diagram.Foremost element other) : first = other := by
  rw [← find?_eq_some_iff_foremost] at one two
  exact Option.some.inj (one.symm.trans two)

/-- Elements are told apart by their ids. -/
theorem Foremost.eq_of_id (foremost : diagram.Foremost element first) (member : element ∈ diagram.elements)
    (same : first.id = element.id) : first = element := by
  obtain ⟨before, after, split, -, -⟩ := foremost
  exact List.inj_on_of_nodup_map diagram.nodup (by simp [split]) member same

end Diagram

/-- The elements of its category that satisfy a rule, in the order of the diagram. -/
def Rule.satisfying (maxDepth : Nat) (rule : Rule) (diagram : Diagram) : List Element :=
  diagram.elements.filter fun element => element.category = rule.category ∧ rule.Matches maxDepth ⟨diagram, element⟩

theorem Rule.mem_satisfying {maxDepth : Nat} {rule : Rule} {diagram : Diagram} {element : Element} :
    element ∈ rule.satisfying maxDepth diagram ↔
      element ∈ diagram.elements ∧ element.category = rule.category ∧ rule.Matches maxDepth ⟨diagram, element⟩ := by
  simp [satisfying]

/-- Whether elements satisfy a rule is what an analyzer says that has no open blocks. -/
theorem Rule.satisfying_eq (maxDepth : Nat) (rule : Rule) (diagram : Diagram) :
    rule.satisfying maxDepth diagram = diagram.elements.filter fun element =>
      element.category = rule.category && (Analyzer.satisfies maxDepth .empty rule ⟨diagram, element⟩).1 := by
  refine List.filter_congr fun element _ => ?_
  rw [Analyzer.satisfies_fst maxDepth _ rfl, Bool.decide_and]

namespace Report

/-- The report of what a scan finds. -/
def ofScan (maxDepth : Nat) (rules : List Rule) (diagram : Diagram) (threats : List Threat)
    (rulesEvaluated : Nat) : Report :=
  build (Scan.run maxDepth rules diagram threats) diagram threats rulesEvaluated

/-- A report of a scan names the elements that were found: each row an element that satisfies its rule, and the rows
of a rule with a known threat all elements that satisfy it, in the order of the diagram. -/
structure NamesFound (maxDepth : Nat) (rules : List Rule) (diagram : Diagram) (threats : List Threat)
    (report : Report) : Prop where
  satisfied : ∀ row ∈ report.rows, ∃ rule ∈ Scan.enabled rules, rule.id = row.rule ∧
    ∃ element ∈ rule.satisfying maxDepth diagram, row.elementId = some element.id
  inOrder : ∀ rule ∈ Scan.enabled rules, rule.threat ∈ threats.map Threat.id →
    (report.rows.filter (·.rule = rule.id)).map ReportRow.elementId =
      (rule.satisfying maxDepth diagram).map (some ·.id)

variable {maxDepth : Nat} {rules : List Rule} {diagram : Diagram} {threats : List Threat}

/-! ## The rows of a rule -/

theorem rowOf?_of_foremost {rule : Rule} {threat : Threat} {element first : Element}
    (known : Threat.find? threats rule.threat = some threat) (fits : element.category = rule.category)
    (foremost : diagram.Foremost element first) :
    ∃ row, rowOf? diagram threats ⟨rule.category, element.shape, rule.id, rule.threat⟩ = some row ∧
      row.rule = rule.id ∧ row.severity = threat.severity ∧ row.elementId = some first.id := by
  have found := Diagram.find?_eq_some_iff_foremost.mpr foremost
  rw [fits] at found
  simp only [rowOf?, known, found]
  exact ⟨_, rfl, rfl, rfl, rfl⟩

def rowsOn (maxDepth : Nat) (diagram : Diagram) (threats : List Threat) (rule : Rule) : List ReportRow :=
  (rule.findings maxDepth diagram threats).filterMap (rowOf? diagram threats)

/-- The rows that rules have before they are sorted. -/
theorem joined_eq (rules : List Rule) :
    (Scan.run maxDepth rules diagram threats).filterMap (rowOf? diagram threats) =
      (Scan.enabled rules).flatMap (rowsOn maxDepth diagram threats) := by
  rw [Scan.run_eq, List.filterMap_flatMap]
  rfl

theorem rowsOn_of_known {rule : Rule} (known : rule.threat ∈ threats.map Threat.id) :
    rowsOn maxDepth diagram threats rule = (rule.satisfying maxDepth diagram).filterMap fun element =>
      rowOf? diagram threats ⟨rule.category, element.shape, rule.id, rule.threat⟩ := by
  rw [rowsOn, Rule.findings, if_pos known, List.filterMap_map]
  rfl

theorem mem_rowsOn {rule : Rule} {row : ReportRow} (member : row ∈ rowsOn maxDepth diagram threats rule) :
    row.rule = rule.id ∧ rule.threat ∈ threats.map Threat.id ∧
      (∃ threat, Threat.find? threats rule.threat = some threat ∧ row.severity = threat.severity) ∧
      ∃ element ∈ rule.satisfying maxDepth diagram, ∃ first, diagram.Foremost element first ∧
        row.elementId = some first.id := by
  rcases Analyzer.find?_threat threats rule.threat with ⟨-, unknown⟩ | ⟨threat, found, -, known⟩
  · rw [rowsOn, Rule.findings, if_neg unknown] at member
    cases member
  · rw [rowsOn_of_known known, List.mem_filterMap] at member
    obtain ⟨element, fits, joined⟩ := member
    obtain ⟨drawn, category, -⟩ := Rule.mem_satisfying.mp fits
    obtain ⟨first, foremost⟩ := Diagram.exists_foremost drawn
    obtain ⟨other, same, sameRule, severity, elementId⟩ := rowOf?_of_foremost found category foremost
    cases joined.symm.trans same
    exact ⟨sameRule, known, ⟨threat, found, severity⟩, element, fits, first, foremost, elementId⟩

/-- The rows of a rule with a known threat stand for the elements that satisfy it, in their order. -/
theorem rowsOn_elements {rule : Rule} (known : rule.threat ∈ threats.map Threat.id) :
    List.Forall₂ (fun elementId element => ∃ first, diagram.Foremost element first ∧ elementId = some first.id)
      ((rowsOn maxDepth diagram threats rule).map ReportRow.elementId) (rule.satisfying maxDepth diagram) := by
  rcases Analyzer.find?_threat threats rule.threat with ⟨-, unknown⟩ | ⟨threat, found, -, -⟩
  · exact absurd known unknown
  rw [rowsOn_of_known known, List.forall₂_map_left_iff]
  have each : ∀ element ∈ rule.satisfying maxDepth diagram, ∃ row first, diagram.Foremost element first ∧
      rowOf? diagram threats ⟨rule.category, element.shape, rule.id, rule.threat⟩ = some row ∧
      row.elementId = some first.id := by
    intro element fits
    obtain ⟨drawn, category, -⟩ := Rule.mem_satisfying.mp fits
    obtain ⟨first, foremost⟩ := Diagram.exists_foremost drawn
    obtain ⟨row, joined, -, -, elementId⟩ := rowOf?_of_foremost found category foremost
    exact ⟨row, first, foremost, joined, elementId⟩
  generalize rule.satisfying maxDepth diagram = elements at each ⊢
  induction elements with
  | nil => exact .nil
  | cons element rest ih =>
    obtain ⟨⟨row, first, foremost, joined, elementId⟩, others⟩ := List.forall_mem_cons.mp each
    simp only [List.filterMap_cons, joined]
    exact .cons ⟨first, foremost, elementId⟩ (ih others)

theorem filter_joined (maxDepth : Nat) (diagram : Diagram) (threats : List Threat)
    (distinct : ((Scan.enabled rules).map Rule.id).Nodup) {rule : Rule} (enabled : rule ∈ Scan.enabled rules) :
    ((Scan.enabled rules).flatMap (rowsOn maxDepth diagram threats)).filter (·.rule = rule.id) =
      rowsOn maxDepth diagram threats rule := by
  obtain ⟨before, after, split⟩ := List.append_of_mem enabled
  have none {others : List Rule} (differ : ∀ other ∈ others, other.id ≠ rule.id) :
      (others.flatMap (rowsOn maxDepth diagram threats)).filter (·.rule = rule.id) = [] := by
    rw [List.filter_eq_nil_iff]
    intro row member
    obtain ⟨other, there, found⟩ := List.mem_flatMap.mp member
    simpa [(mem_rowsOn found).1] using differ other there
  have own : (rowsOn maxDepth diagram threats rule).filter (·.rule = rule.id) =
      rowsOn maxDepth diagram threats rule :=
    List.filter_eq_self.mpr fun row member => by simp [(mem_rowsOn member).1]
  rw [split, List.map_append, List.map_cons, List.nodup_append'] at distinct
  obtain ⟨-, nodup, apart⟩ := distinct
  have earlier : ∀ other ∈ before, other.id ≠ rule.id := fun other there same =>
    apart (List.mem_map_of_mem there) (same ▸ List.mem_cons_self)
  have later : ∀ other ∈ after, other.id ≠ rule.id := fun other there same =>
    (List.nodup_cons.mp nodup).1 (same ▸ List.mem_map_of_mem there)
  rw [split, List.flatMap_append, List.flatMap_cons, List.filter_append, List.filter_append, none earlier, own,
    none later, List.nil_append, List.append_nil]

/-- Rows of one severity keep their order. -/
theorem filter_mergeSort {rows : List ReportRow} {wanted : ReportRow → Bool}
    (same : ∀ left ∈ rows.filter wanted, ∀ right ∈ rows.filter wanted, left.severity = right.severity) :
    (rows.mergeSort precedes).filter wanted = rows.filter wanted := by
  -- The wanted rows are in order already, so a stable sort leaves them one after the other, and adds none.
  have level : (rows.filter wanted).Pairwise fun left right => precedes left right = true :=
    List.pairwise_of_forall_mem_list fun left leftMem right rightMem => by
      simp [precedes, same left leftMem right rightMem]
  have kept : (rows.filter wanted).Sublist (rows.mergeSort precedes) := by
    refine List.sublist_mergeSort ?trans ?total level List.filter_sublist
    case trans =>
      intro first second third
      simp only [precedes, decide_eq_true_eq]
      omega
    case total =>
      intro left right
      simp only [precedes, Bool.or_eq_true, decide_eq_true_eq]
      omega
  have inside := kept.filter wanted
  rw [List.filter_filter] at inside
  simp only [Bool.and_self] at inside
  exact (inside.eq_of_length ((List.mergeSort_perm rows precedes).filter wanted).length_eq.symm).symm

/-- Where rules have different ids, the report has the rows of a rule in the order of what it finds. -/
theorem filter_rows (distinct : ((Scan.enabled rules).map Rule.id).Nodup) {rule : Rule}
    (enabled : rule ∈ Scan.enabled rules) (rulesEvaluated : Nat) :
    (ofScan maxDepth rules diagram threats rulesEvaluated).rows.filter (·.rule = rule.id) =
      rowsOn maxDepth diagram threats rule := by
  have joined := filter_joined maxDepth diagram threats distinct enabled
  rw [← joined, ← joined_eq, ofScan, build]
  refine filter_mergeSort fun left leftMem right rightMem => ?_
  rw [joined_eq, joined] at leftMem rightMem
  obtain ⟨-, -, ⟨threat, found, leftSeverity⟩, -⟩ := mem_rowsOn leftMem
  obtain ⟨-, -, ⟨other, same, rightSeverity⟩, -⟩ := mem_rowsOn rightMem
  cases found.symm.trans same
  rw [leftSeverity, rightSeverity]

/-! ## Whose names rows have -/

section Names

variable (distinct : ((Scan.enabled rules).map Rule.id).Nodup) (rulesEvaluated : Nat)

include distinct

/-- The rows of a rule in a report stand for the elements that satisfy it. -/
theorem rows_elements (maxDepth : Nat) (diagram : Diagram) {rule : Rule} (enabled : rule ∈ Scan.enabled rules)
    (known : rule.threat ∈ threats.map Threat.id) :
    List.Forall₂ (fun elementId element => ∃ first, diagram.Foremost element first ∧ elementId = some first.id)
      (((ofScan maxDepth rules diagram threats rulesEvaluated).rows.filter (·.rule = rule.id)).map
        ReportRow.elementId)
      (rule.satisfying maxDepth diagram) := by
  rw [filter_rows distinct enabled]
  exact rowsOn_elements known

/-- What is named has the id of the element that was found, and of no other element. -/
theorem foremost_of_namesFound
    (names : NamesFound maxDepth rules diagram threats (ofScan maxDepth rules diagram threats rulesEvaluated))
    {rule : Rule} (enabled : rule ∈ Scan.enabled rules) (known : rule.threat ∈ threats.map Threat.id)
    {element : Element} (fits : element ∈ rule.satisfying maxDepth diagram) : diagram.Foremost element element := by
  have alike := rows_elements distinct rulesEvaluated maxDepth diagram enabled known
  rw [names.inOrder rule enabled known, List.forall₂_map_left_iff, List.forall₂_same] at alike
  obtain ⟨first, foremost, same⟩ := alike element fits
  have own := foremost.eq_of_id (Rule.mem_satisfying.mp fits).1 (Option.some.inj same).symm
  rwa [own] at foremost

theorem namesFound_of_foremost
    (first : ∀ rule ∈ Scan.enabled rules, rule.threat ∈ threats.map Threat.id →
      ∀ element ∈ rule.satisfying maxDepth diagram, diagram.Foremost element element) :
    NamesFound maxDepth rules diagram threats (ofScan maxDepth rules diagram threats rulesEvaluated) where
  satisfied := by
    intro row member
    have joined := List.mem_mergeSort.mp member
    rw [joined_eq] at joined
    obtain ⟨rule, enabled, found⟩ := List.mem_flatMap.mp joined
    obtain ⟨sameRule, known, -, element, fits, other, foremost, elementId⟩ := mem_rowsOn found
    rw [foremost.unique (first rule enabled known element fits)] at elementId
    exact ⟨rule, enabled, sameRule.symm, element, fits, elementId⟩
  inOrder := by
    intro rule enabled known
    have alike := (rows_elements distinct rulesEvaluated maxDepth diagram enabled known).flip
    have own := (List.forall₂_and_left _ _).mpr ⟨first rule enabled known, alike⟩
    have named : List.Forall₂ (fun element elementId => some element.id = elementId) (rule.satisfying maxDepth diagram)
        (((ofScan maxDepth rules diagram threats rulesEvaluated).rows.filter (·.rule = rule.id)).map
          ReportRow.elementId) := by
      refine own.imp ?_
      rintro element elementId ⟨foremost, other, found, rfl⟩
      rw [found.unique foremost]
    exact (List.forall₂_eq_eq_eq ▸ List.forall₂_map_left_iff.mpr named :).symm

end Names

/-- The rows of a rule with a known threat stand for the elements that satisfy it, in the order of the diagram, and
each names the first element with the category and the shape of its own. So the report names the elements that were
found exactly if each of them is the first of its kind; of two alike the second is never named. -/
theorem names_foremost (distinct : ((Scan.enabled rules).map Rule.id).Nodup) (rulesEvaluated : Nat) :
    (∀ rule ∈ Scan.enabled rules, rule.threat ∈ threats.map Threat.id →
      List.Forall₂ (fun elementId element => ∃ first, diagram.Foremost element first ∧ elementId = some first.id)
        (((ofScan maxDepth rules diagram threats rulesEvaluated).rows.filter (·.rule = rule.id)).map
          ReportRow.elementId)
        (rule.satisfying maxDepth diagram)) ∧
    (NamesFound maxDepth rules diagram threats (ofScan maxDepth rules diagram threats rulesEvaluated) ↔
      ∀ rule ∈ Scan.enabled rules, rule.threat ∈ threats.map Threat.id →
        ∀ element ∈ rule.satisfying maxDepth diagram, diagram.Foremost element element) := by
  refine ⟨fun rule enabled known => rows_elements distinct rulesEvaluated maxDepth diagram enabled known, ?_, ?_⟩
  · intro names rule enabled known element fits
    exact foremost_of_namesFound distinct rulesEvaluated names enabled known fits
  · exact namesFound_of_foremost distinct rulesEvaluated

def box (id : String) (trust : Int) : Element := ⟨id, ⟨.entity, "box", none, []⟩, [], [("trust", .int trust)]⟩

/-- Of two entities with one shape the second is trusted less. -/
def twoBoxes : Diagram := ⟨[box "a" 4, box "b" 1], by decide⟩

def trustRule (expression : String) : Rule :=
  ⟨"v1", "ThreatRule", ⟨"trust", "Trust", none, none, true⟩, "spoofing", .entity, .design expression⟩

def spoofing : List Threat := [⟨"spoofing", "Spoofing", .high, "", "", {}⟩]

def boxReport (expression : String) : Report :=
  ofScan 10 [trustRule expression] twoBoxes spoofing 1

/-- The report does not name the second entity, which satisfies the rule, but the first, which does not. -/
theorem names_other_box :
    (boxReport "$.trust < 2").rows.map ReportRow.elementId = [some "a"] ∧
    ((trustRule "$.trust < 2").satisfying 10 twoBoxes).map Element.id = ["b"] ∧
    ¬ NamesFound 10 [trustRule "$.trust < 2"] twoBoxes spoofing (boxReport "$.trust < 2") := by
  have rows : (boxReport "$.trust < 2").rows.map ReportRow.elementId = [some "a"] := by decide +kernel
  have found : ((trustRule "$.trust < 2").satisfying 10 twoBoxes).map Element.id = ["b"] := by
    rw [Rule.satisfying_eq]
    decide +kernel
  refine ⟨rows, found, fun names => ?_⟩
  have inOrder := names.inOrder _ List.mem_cons_self (by decide)
  rw [Rule.satisfying_eq] at inOrder
  exact absurd inOrder (by decide +kernel)

/-- If the first entity alone satisfies the rule, the report names it; if both do, it does not name the second. -/
theorem names_foremost_boxes :
    ((Scan.enabled [trustRule "$.trust > 2"]).map Rule.id).Nodup ∧
    NamesFound 10 [trustRule "$.trust > 2"] twoBoxes spoofing (boxReport "$.trust > 2") ∧
    ¬ NamesFound 10 [trustRule "$.trust > 0"] twoBoxes spoofing (boxReport "$.trust > 0") := by
  have foremost (id : String) (trust : Int) : twoBoxes.Foremost (box id trust) (box "a" 4) :=
    ⟨[], [box "b" 1], rfl, ⟨rfl, rfl⟩, List.forall_mem_nil _⟩
  refine ⟨by decide, (names_foremost (by decide) 1).2.mpr ?_, fun names => ?_⟩
  · intro rule enabled _ element fits
    obtain rfl : rule = trustRule "$.trust > 2" := List.mem_singleton.mp (List.mem_of_mem_filter enabled)
    rw [Rule.satisfying_eq, List.mem_filter] at fits
    obtain ⟨drawn, holds⟩ := fits
    simp only [twoBoxes, List.mem_cons, List.not_mem_nil, or_false] at drawn
    rcases drawn with rfl | rfl
    · exact foremost "a" 4
    · exact absurd holds (by decide +kernel)
  · have fits : box "b" 1 ∈ (trustRule "$.trust > 0").satisfying 10 twoBoxes := by
      rw [Rule.satisfying_eq, List.mem_filter]
      exact ⟨by simp [twoBoxes], by decide +kernel⟩
    have second := (names_foremost (by decide) 1).2.mp names _ List.mem_cons_self (by decide) _ fits
    exact absurd (congrArg Element.id (second.unique (foremost "b" 1))) (by decide)

end Report
end ThreatModel
