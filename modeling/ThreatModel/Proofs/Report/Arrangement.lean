import ThreatModel.Proofs.Report.Element

/-!
# The arrangement of a report

A report has one row for each finding whose threat is listed. Main statement: its rows are the one arrangement of them
that has the most severe first and leaves rows of one severity in the order of the scan, and its counts say of each
severity that occurs how many rows have it, so that adding them up from a severity on loses no row.
-/

namespace ThreatModel

namespace Report

/-! ## Rows of findings -/

variable {diagram : Diagram} {threats : List Threat} {finding : Finding} {row : ReportRow}

/-- Whether an element is one that a finding may stand for. -/
def Stands (finding : Finding) (e : Element) : Prop := e.category = finding.category ∧ e.shape = finding.shape

/-- The element that a row names is the first one that its finding may stand for; it names none if there is none. -/
inductive Names (diagram : Diagram) (finding : Finding) (row : ReportRow) : Prop
  | drawn {e : Element} (first : IsFirst diagram.elements (Stands finding) e) (id : row.elementId = some e.id)
      (name : row.elementName = some e.displayName)
  | gone (none : ∀ e ∈ diagram.elements, ¬ Stands finding e) (id : row.elementId = .none)
      (name : row.elementName = .none)

/-- A row joins a finding with the first threat of its id and with an element. -/
structure Joins (diagram : Diagram) (threats : List Threat) (finding : Finding) (row : ReportRow) : Prop where
  rule : row.rule = finding.rule
  category : row.category = finding.category
  shape : row.shape = finding.shape
  threat : ∃ threat, IsFirst threats (·.id = finding.threat) threat ∧ row.threat = threat.id ∧
    row.threatName = threat.name ∧ row.severity = threat.severity ∧ row.mitigation = threat.mitigation
  element : Names diagram finding row

instance : DecidablePred (Stands finding) := fun _ => inferInstanceAs (Decidable (_ ∧ _))

theorem find?_stands :
    (diagram.ofCategory finding.category).find? (·.shape = finding.shape) =
      diagram.elements.find? fun e => Stands finding e :=
  Diagram.find?_ofCategory

theorem names_iff :
    Names diagram finding row ↔
      row.elementId = (diagram.elements.find? fun e => Stands finding e).map Element.id ∧
        row.elementName = (diagram.elements.find? fun e => Stands finding e).map Element.displayName := by
  cases found : diagram.elements.find? fun e => Stands finding e with
  | none =>
    have none : ∀ e ∈ diagram.elements, ¬ Stands finding e := by simpa using found
    constructor
    · intro names
      cases names with
      | drawn first =>
        rw [find?_eq_some_iff_isFirst.mpr first] at found
        cases found
      | gone _ id name => exact ⟨id, name⟩
    · rintro ⟨id, name⟩
      exact .gone none id name
  | some e =>
    have first := find?_eq_some_iff_isFirst.mp found
    constructor
    · intro names
      cases names with
      | drawn other id name =>
        rw [find?_eq_some_iff_isFirst.mpr other] at found
        cases found
        exact ⟨id, name⟩
      | gone none => exact absurd (List.find?_some found) (by simpa using none e (List.mem_of_find?_eq_some found))
    · rintro ⟨id, name⟩
      exact .drawn first id name

theorem rowOf?_eq_some : rowOf? diagram threats finding = some row ↔ Joins diagram threats finding row := by
  have threat_iff (threat : Threat) :
      Threat.find? threats finding.threat = some threat ↔ IsFirst threats (·.id = finding.threat) threat :=
    find?_eq_some_iff_isFirst
  rw [rowOf?, Option.bind_eq_bind, Option.bind_eq_some_iff]
  simp only [threat_iff, find?_stands, pure, Option.some.injEq]
  constructor
  · rintro ⟨threat, first, rfl⟩
    exact ⟨rfl, rfl, rfl, ⟨threat, first, rfl, rfl, rfl, rfl⟩, names_iff.mpr ⟨rfl, rfl⟩⟩
  · rintro ⟨rule, category, shape, ⟨threat, first, id, name, severity, mitigation⟩, element⟩
    obtain ⟨elementId, elementName⟩ := names_iff.mp element
    refine ⟨threat, first, ?_⟩
    rw [← rule, ← category, ← shape, ← id, ← name, ← severity, ← mitigation, ← elementId, ← elementName]

theorem rowOf?_eq_none : rowOf? diagram threats finding = none ↔ finding.threat ∉ threats.map Threat.id := by
  rcases Analyzer.find?_threat threats finding.threat with ⟨found, unknown⟩ | ⟨threat, found, -, known⟩
  · simp [rowOf?, found, unknown]
  · simp [rowOf?, found, known]

/-- The findings whose threat is listed are joined one by one. -/
theorem joined_iff {findings : List Finding} {joined : List ReportRow} :
    List.Forall₂ (Joins diagram threats) (findings.filter (·.threat ∈ threats.map Threat.id)) joined ↔
      joined = findings.filterMap (rowOf? diagram threats) := by
  induction findings generalizing joined with
  | nil => exact List.forall₂_nil_left_iff
  | cons finding rest ih =>
    cases found : rowOf? diagram threats finding with
    | none =>
      have unknown := rowOf?_eq_none.mp found
      rw [List.filterMap_cons_none found, List.filter_cons_of_neg (by simpa using unknown), ih]
    | some row =>
      have known : finding.threat ∈ threats.map Threat.id := by
        by_contra unknown
        rw [rowOf?_eq_none.mpr unknown] at found
        cases found
      rw [List.filterMap_cons_some found, List.filter_cons_of_pos (by simpa using known), List.forall₂_cons_left_iff]
      constructor
      · rintro ⟨first, others, joins, each, rfl⟩
        cases found.symm.trans (rowOf?_eq_some.mpr joins)
        rw [ih.mp each]
      · rintro rfl
        exact ⟨row, _, rowOf?_eq_some.mp found, ih.mpr rfl, rfl⟩

/-! ## The order of rows -/

/-- Rows in the order of a report: the most severe first, and rows of one severity as they were. -/
structure Arranged (joined rows : List ReportRow) : Prop where
  same : rows.Perm joined
  descending : rows.Pairwise fun left right => right.severity.rank ≤ left.severity.rank
  stable : ∀ severity, rows.filter (·.severity = severity) = joined.filter (·.severity = severity)

theorem mem_of_filters {rows others : List ReportRow}
    (alike : ∀ severity, rows.filter (·.severity = severity) = others.filter (·.severity = severity))
    (row : ReportRow) : row ∈ rows ↔ row ∈ others := by
  have both := congrArg (row ∈ ·) (alike row.severity)
  simpa using both

/-- Rows that descend are told by those of each severity. -/
theorem eq_of_filters {rows others : List ReportRow}
    (descending : rows.Pairwise fun left right => right.severity.rank ≤ left.severity.rank)
    (descending' : others.Pairwise fun left right => right.severity.rank ≤ left.severity.rank)
    (alike : ∀ severity, rows.filter (·.severity = severity) = others.filter (·.severity = severity)) :
    rows = others := by
  induction rows generalizing others with
  | nil =>
    refine (List.eq_nil_iff_forall_not_mem.mpr fun row member => ?_).symm
    exact List.not_mem_nil ((mem_of_filters alike row).mpr member)
  | cons row rest ih =>
    cases others with
    | nil => simpa using (mem_of_filters alike row).mp List.mem_cons_self
    | cons other more =>
      -- Each of the two first rows stands in the other list, so neither is the more severe one.
      have below : other.severity.rank ≤ row.severity.rank := by
        rcases List.mem_cons.mp ((mem_of_filters alike other).mpr List.mem_cons_self) with rfl | inside
        · exact Nat.le_refl _
        · exact List.rel_of_pairwise_cons descending inside
      have above : row.severity.rank ≤ other.severity.rank := by
        rcases List.mem_cons.mp ((mem_of_filters alike row).mp List.mem_cons_self) with rfl | inside
        · exact Nat.le_refl _
        · exact List.rel_of_pairwise_cons descending' inside
      have level : other.severity = row.severity := Severity.rank_inj (Nat.le_antisymm below above)
      have firsts := alike row.severity
      rw [List.filter_cons_of_pos (by simp), List.filter_cons_of_pos (by simpa using level)] at firsts
      obtain ⟨rfl, -⟩ := List.cons.inj firsts
      have alike' (severity : Severity) :
          rest.filter (·.severity = severity) = more.filter (·.severity = severity) := by
        have both := alike severity
        by_cases own : row.severity = severity
        · rw [List.filter_cons_of_pos (by simpa using own), List.filter_cons_of_pos (by simpa using own)] at both
          exact (List.cons.inj both).2
        · rwa [List.filter_cons_of_neg (by simpa using own), List.filter_cons_of_neg (by simpa using own)] at both
      rw [ih descending.of_cons descending'.of_cons alike']

theorem arranged_iff {joined rows : List ReportRow} : Arranged joined rows ↔ rows = joined.mergeSort precedes := by
  have descends (left right : ReportRow) :
      (precedes left right || precedes right left) = true := by
    simp only [precedes, Bool.or_eq_true, decide_eq_true_eq]
    omega
  have follows (first second third : ReportRow) :
      precedes first second = true → precedes second third = true → precedes first third = true := by
    simp only [precedes, decide_eq_true_eq]
    omega
  have descending : (joined.mergeSort precedes).Pairwise fun left right => right.severity.rank ≤ left.severity.rank :=
    (List.pairwise_mergeSort follows descends joined).imp fun precedes => by simpa [Report.precedes] using precedes
  have stable (severity : Severity) :
      (joined.mergeSort precedes).filter (·.severity = severity) = joined.filter (·.severity = severity) := by
    refine filter_mergeSort fun left leftMem right rightMem => ?_
    have left_eq := List.of_mem_filter leftMem
    have right_eq := List.of_mem_filter rightMem
    rw [decide_eq_true_eq] at left_eq right_eq
    rw [left_eq, right_eq]
  constructor
  · intro arranged
    exact eq_of_filters arranged.descending descending fun severity =>
      (arranged.stable severity).trans (stable severity).symm
  · rintro rfl
    exact ⟨List.mergeSort_perm joined precedes, descending, stable⟩

/-! ## Counts -/

section Tally

variable {severity : Severity} {counts : List (Severity × Nat)}

theorem mem_tally {entry : Severity × Nat} (member : entry ∈ tally severity counts) :
    (entry.1 = severity ∧ 0 < entry.2) ∨ entry ∈ counts := by
  fun_induction tally severity counts with
  | case1 => exact .inl (List.mem_singleton.mp member ▸ ⟨rfl, Nat.one_pos⟩)
  | case2 other count rest less =>
    rcases List.mem_cons.mp member with rfl | inside
    · exact .inl ⟨rfl, Nat.one_pos⟩
    · exact .inr inside
  | case3 count rest =>
    rcases List.mem_cons.mp member with rfl | inside
    · exact .inl ⟨rfl, Nat.succ_pos count⟩
    · exact .inr (List.mem_cons_of_mem _ inside)
  | case4 other count rest notLess apart ih =>
    rcases List.mem_cons.mp member with rfl | inside
    · exact .inr List.mem_cons_self
    · exact (ih inside).imp_right (List.mem_cons_of_mem _)

theorem pairwise_tally (ordered : counts.Pairwise (·.1.rank < ·.1.rank)) :
    (tally severity counts).Pairwise (·.1.rank < ·.1.rank) := by
  fun_induction tally severity counts with
  | case1 => exact List.pairwise_singleton _ _
  | case2 other count rest less =>
    refine .cons ?_ ordered
    intro entry member
    rcases List.mem_cons.mp member with rfl | inside
    · exact less
    · exact Nat.lt_trans less (List.rel_of_pairwise_cons ordered inside)
  | case3 count rest => exact .cons (fun entry inside => List.rel_of_pairwise_cons ordered inside) ordered.of_cons
  | case4 other count rest notLess apart ih =>
    refine .cons ?_ (ih ordered.of_cons)
    intro entry member
    rcases mem_tally member with ⟨own, -⟩ | inside
    · have differ : severity.rank ≠ other.rank := fun same => apart (Severity.rank_inj same)
      show other.rank < entry.1.rank
      rw [own]
      omega
    · exact List.rel_of_pairwise_cons ordered inside

/-- In order, the severity of an entry is counted by that entry alone. -/
theorem total_of_mem {count : Nat} (ordered : counts.Pairwise (·.1.rank < ·.1.rank))
    (member : (severity, count) ∈ counts) : total (counts.filter fun entry => entry.1 = severity) = count := by
  induction counts with
  | nil => cases member
  | cons first rest ih =>
    rcases List.mem_cons.mp member with rfl | inside
    · have others : rest.filter (fun entry => entry.1 = severity) = [] := by
        rw [List.filter_eq_nil_iff]
        intro entry behind same
        have less := List.rel_of_pairwise_cons ordered behind
        rw [of_decide_eq_true same] at less
        exact Nat.lt_irrefl _ less
      rw [List.filter_cons_of_pos (by simp), others]
      rfl
    · have less : first.1.rank < severity.rank := List.rel_of_pairwise_cons ordered inside
      have apart : first.1 ≠ severity := fun same => Nat.ne_of_lt less (congrArg Severity.rank same)
      rw [List.filter_cons_of_neg (by simpa using apart), ih ordered.of_cons inside]

end Tally

theorem pairwise_countsOf (rows : List ReportRow) : (countsOf rows).Pairwise (·.1.rank < ·.1.rank) := by
  induction rows using List.reverseRecOn with
  | nil => exact .nil
  | append_singleton rows row ih =>
    rw [countsOf_concat]
    exact pairwise_tally ih

theorem pos_countsOf (rows : List ReportRow) : ∀ entry ∈ countsOf rows, 0 < entry.2 := by
  induction rows using List.reverseRecOn with
  | nil => exact List.forall_mem_nil _
  | append_singleton rows row ih =>
    rw [countsOf_concat]
    intro entry member
    rcases mem_tally member with ⟨-, counted⟩ | inside
    · exact counted
    · exact ih entry inside

/-- The counts have the severities that occur, with the number of their rows, and no others. -/
theorem mem_countsOf {rows : List ReportRow} {severity : Severity} {count : Nat} :
    (severity, count) ∈ countsOf rows ↔ count = rows.countP (·.severity = severity) ∧ 0 < count := by
  have counted := total_wanted rows fun other => other = severity
  constructor
  · intro member
    rw [total_of_mem (pairwise_countsOf rows) member] at counted
    exact ⟨counted, pos_countsOf rows _ member⟩
  · rintro ⟨rfl, positive⟩
    have some : (countsOf rows).filter (fun entry => entry.1 = severity) ≠ [] := by
      intro none
      rw [none] at counted
      exact Nat.ne_of_lt positive counted
    obtain ⟨⟨other, count⟩, inside⟩ := List.exists_mem_of_ne_nil _ some
    obtain ⟨member, same⟩ := List.mem_filter.mp inside
    obtain rfl : other = severity := by simpa using same
    rw [total_of_mem (pairwise_countsOf rows) member] at counted
    rwa [← counted]

/-- What counts say of rows. -/
structure Counted (report : Report) : Prop where
  /-- The severities that occur, with the number of their rows, and no others. -/
  occurring : ∀ severity count, (severity, count) ∈ report.counts ↔
    count = report.rows.countP (·.severity = severity) ∧ 0 < count
  /-- One entry for each, the least severity first. -/
  ordered : report.counts.Pairwise (·.1.rank < ·.1.rank)
  atLeast : ∀ severity, report.countAtLeast severity = report.rows.countP (severity.rank ≤ ·.severity.rank)
  antitone : ∀ less more : Severity, less.rank ≤ more.rank → report.countAtLeast more ≤ report.countAtLeast less
  least : report.countAtLeast .info = report.rows.length
  total : total report.counts = report.rows.length

theorem counted_build (findings : List Finding) (diagram : Diagram) (threats : List Threat) (rulesEvaluated : Nat) :
    Counted (build findings diagram threats rulesEvaluated) where
  occurring _ _ := mem_countsOf
  ordered := pairwise_countsOf _
  atLeast := countAtLeast_build findings diagram threats rulesEvaluated
  antitone less more atMost := by
    rw [countAtLeast_build, countAtLeast_build]
    refine List.countP_mono_left fun row _ severe => ?_
    rw [decide_eq_true_eq] at severe ⊢
    exact Nat.le_trans atMost severe
  least := by
    rw [countAtLeast_build]
    exact List.countP_eq_length.mpr fun row _ => decide_eq_true (Nat.zero_le _)
  total := total_countsOf _

/-- The rows of a report are those of the findings whose threat is listed, in the one arrangement that has the most
severe first and leaves rows of one severity in the order of the findings; and its counts are those of its rows. -/
theorem build_arranged (findings : List Finding) (diagram : Diagram) (threats : List Threat) (rulesEvaluated : Nat) :
    (∀ rows, rows = (build findings diagram threats rulesEvaluated).rows ↔
      ∃ joined, List.Forall₂ (Joins diagram threats) (findings.filter (·.threat ∈ threats.map Threat.id)) joined ∧
        Arranged joined rows) ∧
      Counted (build findings diagram threats rulesEvaluated) := by
  refine ⟨fun rows => ⟨?_, ?_⟩, counted_build findings diagram threats rulesEvaluated⟩
  · rintro rfl
    exact ⟨_, joined_iff.mpr rfl, arranged_iff.mpr rfl⟩
  · rintro ⟨joined, joins, arranged⟩
    cases joined_iff.mp joins
    exact arranged_iff.mp arranged

/-- The report of four findings: the third has a threat that is not listed, the first and the last have one severity. -/
example :
    let findings := [⟨.entity, "box", "a", "leak"⟩, ⟨.entity, "box", "b", "theft"⟩, ⟨.entity, "box", "c", "fire"⟩,
      ⟨.entity, "box", "d", "leak"⟩]
    let report := build findings .empty [⟨"leak", "Leak", .low, "", "", {}⟩, ⟨"theft", "Theft", .high, "", "", {}⟩] 4
    report.rows.map ReportRow.rule = ["b", "a", "d"] ∧ report.counts = [(.low, 2), (.high, 1)] := by
  cbv

end Report
end ThreatModel
