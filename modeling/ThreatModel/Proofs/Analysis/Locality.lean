import Mathlib.Data.List.Perm.Basic
import ThreatModel.Proofs.Analysis.Refinement
import ThreatModel.Proofs.Path.Closure

/-!
# What findings depend on

Whether an element satisfies a rule depends on the elements that paths come to from it, and on nothing else in
the diagram. Main statement: a diagram keeps its findings when its elements are drawn in another order and
elements are added to which none of the old ones points.
-/

namespace ThreatModel

variable {known : String → Prop} {diagram other : Diagram} {e : Element} {names : Valuation}

/-! ## Values of names -/

/-- The elements that the values of names name are known. -/
def Valuation.Within (known : String → Prop) (names : Valuation) : Prop :=
  ∀ name value, names name = some value → value.Within known

namespace Valuation

theorem within_empty : empty.Within known := by
  intro name value has
  cases has

theorem Within.set (within : names.Within known) (name : String) {value : Value}
    (inside : value.Within known) : (names.set name value).Within known := by
  intro another found has
  unfold Valuation.set at has
  split at has
  · cases has
    exact inside
  · exact within another found has

end Valuation

section Closed

variable (closed : diagram.Closed known) (inside : known e.id)

include closed inside

theorem Operand.within_value? (within : names.Within known) {operand : Operand} {value : Value}
    (has : operand.value? ⟨diagram, e⟩ names = some value) : value.Within known := by
  cases operand with
  | path segments =>
    cases has
    exact Value.within_ofPath closed inside segments
  | literal content =>
    cases has
    exact Value.within_ofLiteral content
  | named name segments =>
    obtain ⟨start, bound, rfl⟩ := Option.map_eq_some_iff.mp has
    exact Value.within_walk closed (within name start bound) segments

namespace Valuation

theorem within_bind (within : names.Within known) (expression : String) :
    (names.bind ⟨diagram, e⟩ expression).Within known := by
  unfold bind
  split
  · split
    · rename_i has
      exact within.set _ (Operand.within_value? closed inside within has)
    · exact within
  · exact within

theorem within_bindAll (within : names.Within known) (children : List Condition) :
    (names.bindAll ⟨diagram, e⟩ children).Within known := by
  induction children generalizing names with
  | nil => exact within
  | cons child rest ih =>
    cases child with
    | list combinator inner => exact ih within
    | design expression => exact ih within
    | binding expression => exact ih (within_bind closed inside within expression)

end Valuation

/-! ## Diagrams that agree -/

variable (agree : diagram.AgreesOn known other)

include agree

theorem Operand.value?_agree (within : names.Within known) (operand : Operand) :
    operand.value? ⟨diagram, e⟩ names = operand.value? ⟨other, e⟩ names := by
  cases operand with
  | path segments => exact congrArg some (Value.ofPath_agree closed agree inside segments)
  | literal content => rfl
  | named name segments =>
    exact Option.map_congr fun start bound => Value.walk_agree closed agree (within name start bound) segments

namespace Valuation

theorem bind_agree (within : names.Within known) (expression : String) :
    names.bind ⟨diagram, e⟩ expression = names.bind ⟨other, e⟩ expression := by
  simp only [bind, Operand.value?_agree closed inside agree within]

theorem bindAll_agree (within : names.Within known) (children : List Condition) :
    names.bindAll ⟨diagram, e⟩ children = names.bindAll ⟨other, e⟩ children := by
  induction children generalizing names with
  | nil => rfl
  | cons child rest ih =>
    cases child with
    | list combinator inner => exact ih within
    | design expression => exact ih within
    | binding expression =>
      have same := bind_agree closed inside agree within expression
      simp only [bindAll, ← same]
      exact ih (within_bind closed inside within expression)

end Valuation

theorem designHolds_agree (within : names.Within known) (expression : String) :
    DesignHolds ⟨diagram, e⟩ names expression ↔ DesignHolds ⟨other, e⟩ names expression := by
  simp only [DesignHolds, Operand.value?_agree closed inside agree within]

theorem Condition.holds_agree {maxDepth depth : Nat} (within : names.Within known) (condition : Condition) :
    condition.Holds maxDepth ⟨diagram, e⟩ names depth ↔ condition.Holds maxDepth ⟨other, e⟩ names depth := by
  induction condition using Condition.induction generalizing names depth with
  | design expression => simp only [holds_design, designHolds_agree closed inside agree within]
  | binding expression => simp only [not_holds_binding]
  | list combinator children ih =>
    -- Bindings come to the same values in both diagrams, and these values lead to known elements again.
    have same := Valuation.bindAll_agree closed inside agree within children
    have still := Valuation.within_bindAll closed inside within children
    cases combinator with
    | all =>
      rw [holds_all, holds_all, ← same]
      exact and_congr_right' (forall₃_congr fun child member _ => ih child member still)
    | any =>
      rw [holds_any, holds_any, ← same]
      exact and_congr_right' (exists_congr fun child =>
        and_congr_right fun member => and_congr_right' (ih child member still))

theorem Rule.matches_agree (maxDepth : Nat) (rule : Rule) :
    rule.Matches maxDepth ⟨diagram, e⟩ ↔ rule.Matches maxDepth ⟨other, e⟩ :=
  Condition.holds_agree closed inside agree Valuation.within_empty rule.condition

end Closed

/-! ## Larger diagrams -/

namespace Diagram

/-- A diagram has the elements of a smaller one, in whatever order, and added ones to which no relation of the
old ones points. -/
structure Extends (larger smaller : Diagram) (added : List Element) : Prop where
  perm : larger.elements.Perm (smaller.elements ++ added)
  untouched : ∀ e ∈ smaller.elements, ∀ target ∈ e.references, target ∉ added.map Element.id

variable {larger smaller : Diagram} {added : List Element}

namespace Extends

theorem closed (grown : larger.Extends smaller added) : smaller.Closed (· ∉ added.map Element.id) :=
  fun e member _ => grown.untouched e member

/-- No old element has the id of an added one. -/
theorem old (grown : larger.Extends smaller added) {e : Element} (member : e ∈ smaller.elements) :
    e.id ∉ added.map Element.id := by
  have nodup := (grown.perm.map Element.id).nodup_iff.mp larger.nodup
  rw [List.map_append] at nodup
  exact fun again => List.disjoint_of_nodup_append nodup (List.mem_map_of_mem member) again

theorem agrees (grown : larger.Extends smaller added) :
    smaller.AgreesOn (· ∉ added.map Element.id) larger := by
  intro id fresh
  refine Option.ext fun e => ?_
  rw [find?_eq_some, find?_eq_some, grown.perm.mem_iff, List.mem_append]
  constructor
  · rintro ⟨member, same⟩
    exact ⟨.inl member, same⟩
  · rintro ⟨member | member, rfl⟩
    · exact ⟨member, rfl⟩
    · exact absurd (List.mem_map_of_mem member) fresh

end Extends
end Diagram

/-! ## Findings on some elements -/

namespace Analyzer

/-- The findings of a rule on some elements of a diagram, in the order in which they are given. -/
def evaluateOn (analyzer : Analyzer) (rule : Rule) (diagram : Diagram) (threats : List Threat)
    (elements : List Element) : List Finding :=
  match Threat.find? threats rule.threat with
  | none => []
  | some threat => (findingsOn analyzer.maxDepth diagram rule threat analyzer.scope elements).1

theorem evaluate_eq_evaluateOn (analyzer : Analyzer) (rule : Rule) (diagram : Diagram) (threats : List Threat) :
    (analyzer.evaluate rule diagram threats).1 =
      analyzer.evaluateOn rule diagram threats (diagram.ofCategory rule.category) := by
  unfold evaluate evaluateOn
  cases Threat.find? threats rule.threat with
  | none => rfl
  | some threat => rfl

theorem evaluateOn_eq {analyzer : Analyzer} (idle : analyzer.scope.frames = []) (rule : Rule)
    (diagram : Diagram) (threats : List Threat) (elements : List Element) :
    analyzer.evaluateOn rule diagram threats elements =
      (elements.filter fun e =>
        rule.threat ∈ threats.map Threat.id ∧ rule.Matches analyzer.maxDepth ⟨diagram, e⟩).map fun e =>
          ⟨rule.category, e.shape, rule.id, rule.threat⟩ := by
  unfold evaluateOn
  rcases find?_threat threats rule.threat with ⟨none, unknown⟩ | ⟨threat, found, same, known⟩
  · simp [none, unknown]
  · simp only [found, known, findingsOn_fst analyzer.maxDepth diagram rule threat idle, same, true_and]

section Idle

variable {analyzer : Analyzer} (idle : analyzer.scope.frames = []) {rule : Rule} {diagram : Diagram}
  {threats : List Threat} {elements others : List Element}

include idle

theorem evaluateOn_perm (perm : elements.Perm others) :
    (analyzer.evaluateOn rule diagram threats elements).Perm
      (analyzer.evaluateOn rule diagram threats others) := by
  rw [evaluateOn_eq idle, evaluateOn_eq idle]
  exact (perm.filter _).map _

theorem evaluateOn_sublist (sublist : elements.Sublist others) :
    (analyzer.evaluateOn rule diagram threats elements).Sublist
      (analyzer.evaluateOn rule diagram threats others) := by
  rw [evaluateOn_eq idle, evaluateOn_eq idle]
  exact (sublist.filter _).map _

theorem evaluateOn_append :
    analyzer.evaluateOn rule diagram threats (elements ++ others) =
      analyzer.evaluateOn rule diagram threats elements ++ analyzer.evaluateOn rule diagram threats others := by
  rw [evaluateOn_eq idle, evaluateOn_eq idle, evaluateOn_eq idle, List.filter_append, List.map_append]

end Idle
end Analyzer

/-! ## Findings on old elements -/

namespace Diagram.Extends

variable {larger smaller : Diagram} {added : List Element}

/-- The elements of a category, taken apart into old and added ones. -/
theorem ofCategory (grown : larger.Extends smaller added) (category : Category) :
    (larger.ofCategory category).Perm
      (smaller.ofCategory category ++ added.filter (·.category = category)) := by
  have perm := grown.perm.filter (·.category = category)
  rw [List.filter_append] at perm
  exact perm

/-- The old elements of a category can be told by their ids. -/
theorem oldOfCategory (grown : larger.Extends smaller added) (category : Category) :
    ((larger.ofCategory category).filter (·.id ∈ smaller.elements.map Element.id)).Perm
      (smaller.ofCategory category) := by
  have perm := (grown.ofCategory category).filter (·.id ∈ smaller.elements.map Element.id)
  have all : (smaller.ofCategory category).filter (·.id ∈ smaller.elements.map Element.id) =
      smaller.ofCategory category := by
    refine List.filter_eq_self.mpr fun e member => ?_
    exact decide_eq_true (List.mem_map_of_mem (List.mem_of_mem_filter member))
  have none : (added.filter (·.category = category)).filter (·.id ∈ smaller.elements.map Element.id) = [] := by
    refine List.filter_eq_nil_iff.mpr fun e member again => ?_
    obtain ⟨owner, inside, same⟩ := List.mem_map.mp (of_decide_eq_true again)
    exact grown.old inside (List.mem_map.mpr ⟨e, List.mem_of_mem_filter member, same.symm⟩)
  rw [List.filter_append, all, none, List.append_nil] at perm
  exact perm

/-- An old element is matched as before. -/
theorem matches_iff (grown : larger.Extends smaller added) {e : Element} (member : e ∈ smaller.elements)
    (maxDepth : Nat) (rule : Rule) :
    rule.Matches maxDepth ⟨larger, e⟩ ↔ rule.Matches maxDepth ⟨smaller, e⟩ :=
  (Rule.matches_agree grown.closed (grown.old member) grown.agrees maxDepth rule).symm

end Diagram.Extends

namespace Analyzer

theorem evaluateOn_extends {before after : Analyzer} (idle : before.scope.frames = [])
    (idle' : after.scope.frames = []) (bound : before.maxDepth = after.maxDepth) {larger smaller : Diagram}
    {added : List Element} (grown : larger.Extends smaller added) {elements : List Element}
    (old : ∀ e ∈ elements, e ∈ smaller.elements) (rule : Rule) (threats : List Threat) :
    after.evaluateOn rule larger threats elements = before.evaluateOn rule smaller threats elements := by
  rw [evaluateOn_eq idle, evaluateOn_eq idle', bound]
  refine congrArg _ (List.filter_congr fun e member => ?_)
  simp only [grown.matches_iff (old e member)]

/-- When the elements of a diagram are drawn in another order and elements are added to which no relation of
the old ones points, whether a rule matches an old element stays as it was. So the findings on old elements, in
the order in which these are drawn now, are those that the rule had, in another order; and all findings are
these and the findings on added elements. None of this depends on what the analyzers have evaluated before. -/
theorem evaluate_extends {larger smaller : Diagram} {added : List Element}
    (grown : larger.Extends smaller added) (maxDepth : Nat) (rule : Rule) (threats : List Threat)
    (history history' : List Call) :
    let before := (Analyzer.new maxDepth).after history
    let after := (Analyzer.new maxDepth).after history'
    let old := (larger.ofCategory rule.category).filter (·.id ∈ smaller.elements.map Element.id)
    let fresh := added.filter (·.category = rule.category)
    (∀ e ∈ smaller.elements,
      (satisfies maxDepth after.scope rule ⟨larger, e⟩).1 =
        (satisfies maxDepth before.scope rule ⟨smaller, e⟩).1) ∧
    after.evaluateOn rule larger threats old = before.evaluateOn rule smaller threats old ∧
    (after.evaluateOn rule larger threats old).Perm (before.evaluate rule smaller threats).1 ∧
    (after.evaluateOn rule larger threats old).Sublist (after.evaluate rule larger threats).1 ∧
    (after.evaluate rule larger threats).1.Perm
      ((before.evaluate rule smaller threats).1 ++ after.evaluateOn rule larger threats fresh) := by
  intro before after old fresh
  obtain ⟨idle, bound⟩ : before.scope.frames = [] ∧ before.maxDepth = maxDepth := after_idle rfl history
  obtain ⟨idle', bound'⟩ : after.scope.frames = [] ∧ after.maxDepth = maxDepth := after_idle rfl history'
  have same : before.maxDepth = after.maxDepth := bound.trans bound'.symm
  have perm : old.Perm (smaller.ofCategory rule.category) := grown.oldOfCategory rule.category
  have kept : ∀ e ∈ old, e ∈ smaller.elements :=
    fun e member => List.mem_of_mem_filter (perm.mem_iff.mp member)
  have oldFindings : after.evaluateOn rule larger threats old = before.evaluateOn rule smaller threats old :=
    evaluateOn_extends idle idle' same grown kept rule threats
  -- The same for the old elements in their old order, so that the old findings stand among the new ones.
  have allOld : after.evaluateOn rule larger threats (smaller.ofCategory rule.category) =
      before.evaluateOn rule smaller threats (smaller.ofCategory rule.category) :=
    evaluateOn_extends idle idle' same grown (fun e member => List.mem_of_mem_filter member) rule threats
  rw [evaluate_eq_evaluateOn, evaluate_eq_evaluateOn]
  refine ⟨fun e member => ?_, oldFindings, ?_, ?_, ?_⟩
  · rw [satisfies_fst maxDepth _ idle, satisfies_fst maxDepth _ idle']
    exact decide_eq_decide.mpr (grown.matches_iff member maxDepth rule)
  · rw [oldFindings]
    exact evaluateOn_perm idle perm
  · exact evaluateOn_sublist idle' List.filter_sublist
  · rw [← allOld, ← evaluateOn_append idle']
    exact evaluateOn_perm idle' (grown.ofCategory rule.category)

/-- A zone whose list of entities has an id that nothing has, an entity in it and a dataflow from there. -/
def zoneElements : List Element :=
  [⟨"z", ⟨.zone, "frame", none, []⟩, [("entities", .many ["e", "gone"])], [("trust", .int 2)]⟩,
    ⟨"e", ⟨.entity, "box", none, []⟩, [("zone", .one "z")], [("trust", .int 1)]⟩,
    ⟨"d", ⟨.dataflow, "arrow", none, []⟩, [("source", .one "e")], []⟩]

/-- Another entity of the zone, and a dataflow from there. The zone does not say that it has this entity. -/
def moreElements : List Element :=
  [⟨"f", ⟨.entity, "box", none, []⟩, [("zone", .one "z")], [("trust", .int 5)]⟩,
    ⟨"g", ⟨.dataflow, "dashes", none, []⟩, [("source", .one "f")], []⟩]

def zoneDiagram : Diagram := ⟨zoneElements, by decide⟩

def largerDiagram : Diagram := ⟨moreElements ++ zoneElements.reverse, by decide⟩

/-- Finds dataflows from a zone that has an entity which is trusted less than the zone. -/
def zoneRule : Rule :=
  ⟨"v1", "ThreatRule", ⟨"zone", "Zone", none, none, true⟩, "exposure", .dataflow,
    .list .all [.binding "ZONE = $.attached.source.attached.zone",
      .list .any [.design "ZONE.attached.entities.trust < ZONE.trust"]]⟩

def exposure : List Threat := [⟨"exposure", "Exposure", .high, "", "", {}⟩]

theorem evaluate_extends_zone :
    largerDiagram.Extends zoneDiagram moreElements ∧
      ((Analyzer.new 3).evaluate zoneRule zoneDiagram exposure).1.map Finding.shape = ["arrow"] ∧
      ((Analyzer.new 3).evaluateOn zoneRule largerDiagram exposure
        (moreElements.filter (·.category = .dataflow))).map Finding.shape = ["dashes"] ∧
      ((Analyzer.new 3).evaluate zoneRule largerDiagram exposure).1.Perm
        (((Analyzer.new 3).evaluate zoneRule zoneDiagram exposure).1 ++
          (Analyzer.new 3).evaluateOn zoneRule largerDiagram exposure
            (moreElements.filter (·.category = .dataflow))) := by
  have grown : largerDiagram.Extends zoneDiagram moreElements :=
    { perm := (List.perm_append_comm).trans ((List.reverse_perm zoneElements).append_right moreElements)
      untouched := by decide }
  exact ⟨grown, by decide +kernel, by decide +kernel,
    (evaluate_extends grown 3 zoneRule exposure [] []).2.2.2.2⟩

end Analyzer
end ThreatModel
