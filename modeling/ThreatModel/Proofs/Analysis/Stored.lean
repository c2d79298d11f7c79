import ThreatModel.Proofs.Analysis.Record
import ThreatModel.Proofs.Analysis.Refinement
import ThreatModel.Proofs.Except
import ThreatModel.Proofs.Path.Relations

/-!
# What bindings store

The values in the blocks of a scope come from paths, literals and other values in it. Main statements: what
holds of paths and literals and stays along paths holds of every value that an evaluation stores; and in a
diagram whose relations have no problems these values, as those of paths, name elements of the diagram.
-/

namespace ThreatModel

/-! ## Scopes -/

namespace Scope

/-- Every value in every block is good, those of hidden names included. -/
def All (good : Value → Prop) (scope : Scope) : Prop :=
  ∀ frame ∈ scope.frames, ∀ binding ∈ frame.bindings, good binding.2

variable {good : Value → Prop} {scope : Scope} {block : BlockId}

theorem all_of_idle (idle : scope.frames = []) : scope.All good := by
  intro frame member
  rw [idle] at member
  cases member

theorem All.congr {other : Scope} (all : scope.All good) (same : other.frames = scope.frames) :
    other.All good := by
  unfold All
  rw [same]
  exact all

theorem All.enter (all : scope.All good) : scope.enter.2.All good := by
  intro frame member
  rcases List.mem_cons.mp member with rfl | outer
  · exact List.forall_mem_nil _
  · exact all frame outer

theorem lookup_mem {frame : Frame} {name : String} {value : Value} (found : frame.lookup? name = some value) :
    (name, value) ∈ frame.bindings := by
  obtain ⟨before, rest, split, -⟩ := List.lookup_eq_some_iff.mp found
  simp [split]

theorem All.resolve (all : scope.All good) {name : String} {value : Value}
    (resolved : scope.resolve name block = .ok value) : good value := by
  unfold Scope.resolve at resolved
  split at resolved
  · cases resolved
  split at resolved
  · rename_i found
    obtain ⟨frame, member, here⟩ := List.exists_of_findSome?_eq_some found
    cases resolved
    exact all frame ((List.dropWhile_sublist _).mem member) (name, value) (lookup_mem here)
  · cases resolved

theorem all_bindIn {name : String} {value : Value} (new : good value) {frames after : List Frame}
    (all : ∀ frame ∈ frames, ∀ binding ∈ frame.bindings, good binding.2)
    (bound : bindIn name value block frames = some after) :
    ∀ frame ∈ after, ∀ binding ∈ frame.bindings, good binding.2 := by
  induction frames generalizing after with
  | nil => cases bound
  | cons first rest ih =>
    obtain ⟨here, others⟩ := List.forall_mem_cons.mp all
    rw [bindIn] at bound
    split at bound
    · cases bound
      exact List.forall_mem_cons.mpr ⟨List.forall_mem_cons.mpr ⟨new, here⟩, others⟩
    · obtain ⟨inner, found, rfl⟩ := Option.map_eq_some_iff.mp bound
      exact List.forall_mem_cons.mpr ⟨here, ih others found⟩

theorem All.register (all : scope.All good) {name : String} {value : Value} (new : good value) {after : Scope}
    (registered : scope.register name value block = .ok after) : after.All good := by
  unfold Scope.register at registered
  split at registered
  · rename_i bound
    cases registered
    exact all_bindIn new all bound
  · cases registered

end Scope

/-! ## Evaluation -/

/-- What evaluation of an element takes values from is good, and values stay good along paths. -/
structure Context.Keeps (context : Context) (good : Value → Prop) : Prop where
  path : ∀ segments, good (.ofPath context segments)
  literal : ∀ content, good (.ofLiteral content)
  walk : ∀ value segments, good value → good (value.walk context.diagram segments)

namespace Analyzer

/-- Every value that is in the scope after a binding is good. -/
def Event.Stores (good : Value → Prop) : Event → Prop
  | .bound _ (.ok after) => after.All good
  | _ => True

variable {context : Context} {good : Value → Prop} {scope : Scope}

theorem good_of_resolve (keeps : context.Keeps good) (all : scope.All good) {block : BlockId}
    {operand : Operand} {value : Value} (resolved : operand.resolve scope context block = .ok value) : good value := by
  cases operand with
  | path segments =>
    cases resolved
    exact keeps.path segments
  | literal content =>
    cases resolved
    exact keeps.literal content
  | named name segments =>
    obtain ⟨start, found, walked⟩ := Except.bind_eq_ok.mp resolved
    cases walked
    exact keeps.walk start segments (all.resolve found)

theorem all_bindVariable (keeps : context.Keeps good) (all : scope.All good) {block : BlockId}
    {expression : String} {after : Scope} (bound : scope.bindVariable expression context block = .ok after) :
    after.All good := by
  unfold Scope.bindVariable at bound
  split at bound
  · cases bound
  · cases bound
  · obtain ⟨value, resolved, registered⟩ := Except.bind_eq_ok.mp bound
    exact all.register (good_of_resolve keeps all resolved) registered

theorem recordBindings_stores (keeps : context.Keeps good) (all : scope.All good) (block : BlockId)
    (children : List Condition) :
    (∀ event ∈ (recordBindings context block scope children).events, event.Stores good) ∧
      (recordBindings context block scope children).value.All good := by
  induction children generalizing scope with
  | nil => exact ⟨List.forall_mem_nil _, all⟩
  | cons child rest ih =>
    cases child with
    | list combinator inner => exact ih all
    | design expression => exact ih all
    | binding expression =>
      rw [recordBindings]
      cases bound : scope.bindVariable expression context block with
      | error fault =>
        obtain ⟨others, after⟩ := ih all
        exact ⟨List.forall_mem_cons.mpr ⟨trivial, others⟩, after⟩
      | ok next =>
        have here : next.All good := all_bindVariable keeps all bound
        obtain ⟨others, after⟩ := ih here
        exact ⟨List.forall_mem_cons.mpr ⟨here, others⟩, after⟩

theorem recordDesign_stores (block : BlockId) (expression : String) :
    ∀ event ∈ (recordDesign context scope block expression).events, event.Stores good := by
  unfold recordDesign
  split
  · exact List.forall_mem_cons.mpr ⟨trivial, List.forall_mem_singleton.mpr trivial⟩
  · exact List.forall_mem_singleton.mpr trivial

variable (maxDepth : Nat)

mutual
theorem recordCondition_stores (keeps : context.Keeps good) {scope : Scope} (all : scope.All good)
    (block : BlockId) (depth : Nat) (condition : Condition) :
    ∀ event ∈ (recordCondition maxDepth context block depth scope condition).events, event.Stores good := by
  cases condition with
  | binding expression =>
    rw [recordCondition]
    exact List.forall_mem_nil _
  | design expression =>
    rw [recordCondition]
    exact recordDesign_stores block expression
  | list combinator children =>
    rw [recordCondition]
    split
    · exact List.forall_mem_singleton.mpr trivial
    · obtain ⟨inner, after⟩ := recordBindings_stores keeps all.enter scope.enter.1 children
      have outcomes := recordConditions_stores keeps after scope.enter.1 (depth + 1) children
      exact List.forall_mem_append.mpr ⟨inner, outcomes⟩

theorem recordConditions_stores (keeps : context.Keeps good) {scope : Scope} (all : scope.All good)
    (block : BlockId) (depth : Nat) (children : List Condition) :
    ∀ event ∈ (recordConditions maxDepth context block depth scope children).events, event.Stores good := by
  cases children with
  | nil =>
    rw [recordConditions]
    exact List.forall_mem_nil _
  | cons child rest =>
    rw [recordConditions]
    split
    · exact recordConditions_stores keeps all block depth rest
    · -- The first condition leaves the frames as they were, so their values are still good.
      have same := frames_holds maxDepth context block depth scope child
      rw [← recordCondition_value] at same
      have first := recordCondition_stores keeps all block depth child
      have others := recordConditions_stores keeps (all.congr same) block depth rest
      exact List.forall_mem_append.mpr ⟨first, others⟩
end

/-- An evaluation that starts with no values stores good ones only. -/
theorem recordElement_stores (keeps : context.Keeps good) (idle : scope.frames = []) (rule : Rule) :
    ∀ event ∈ (recordElement maxDepth context scope rule).events, event.Stores good :=
  recordCondition_stores maxDepth keeps (Scope.all_of_idle idle).enter scope.enter.1 0 rule.condition

theorem recordElements_stores {diagram : Diagram} {good : Element → Value → Prop} {elements : List Element}
    (keeps : ∀ e ∈ elements, Context.Keeps ⟨diagram, e⟩ (good e)) (idle : scope.frames = []) (rule : Rule)
    (threat : Threat) :
    ∀ event ∈ (recordElements maxDepth diagram rule threat scope elements).events,
      ∃ e ∈ elements, event.Stores (good e) := by
  induction elements generalizing scope with
  | nil => exact List.forall_mem_nil _
  | cons e rest ih =>
    obtain ⟨here, others⟩ := List.forall_mem_cons.mp keeps
    have closed := (frames_satisfies maxDepth ⟨diagram, e⟩ scope rule).trans idle
    rw [← recordElement_value] at closed
    rw [recordElements]
    refine List.forall_mem_append.mpr ⟨fun event member => ?_, fun event member => ?_⟩
    · exact ⟨e, List.mem_cons_self, recordElement_stores maxDepth here idle rule event member⟩
    · obtain ⟨owner, inside, stores⟩ := ih others closed event member
      exact ⟨owner, List.mem_cons_of_mem _ inside, stores⟩

end Analyzer

/-! ## Checked diagrams -/

namespace Value

/-- A value of an evaluation in a diagram without dangling ids: it is that of a path or names no elements, the
ids that it names are those of elements, and paths from it end at elements at which their last segments may
point. -/
structure Grounded (context : Context) (value : Value) : Prop where
  origin : (∃ path, value = ofPath context path) ∨ value.Within fun _ => False
  named : ∀ id, (element id).Occurs value ∨ (relations id).Occurs value → context.diagram.Has id
  last : ∀ path segment id, (element id).Occurs (value.walk context.diagram (path ++ [segment])) →
    context.diagram.HasFor segment id

theorem keeps_grounded {diagram : Diagram} (checked : diagram.relationCheck = []) {e : Element}
    (member : e ∈ diagram.elements) : Context.Keeps ⟨diagram, e⟩ (Grounded ⟨diagram, e⟩) where
  path segments :=
    { origin := .inl ⟨segments, rfl⟩
      named := has_of_ofPath checked member segments
      last := fun _ _ _ occurs => hasFor_of_walk checked occurs }
  literal content :=
    { origin := .inr (within_ofLiteral content)
      named := within_ofLiteral content
      last := fun _ _ _ occurs => hasFor_of_walk checked occurs }
  walk value segments grounded :=
    { origin := by
        rcases grounded.origin with ⟨path, rfl⟩ | nameless
        · exact .inl ⟨path ++ segments, walk_ofPath member path segments⟩
        · exact .inr (within_walk (fun _ _ => False.elim) nameless segments)
      named := within_walk (Diagram.closed_of_checked checked) grounded.named segments
      last := fun _ _ _ occurs => hasFor_of_walk checked occurs }

end Value

namespace Analyzer

/-- In a diagram whose relations have no problems, the ids that a path from an element comes to are those of
elements, and the elements at its end are of categories at which its last segment may point. The same holds of
every value in the blocks after each binding that evaluation makes, on any element and in a whole run, whatever
the analyzer has evaluated before. -/
theorem record_grounded {diagram : Diagram} (checked : diagram.relationCheck = []) :
    (∀ e ∈ diagram.elements,
      (∀ path id, (Value.element id).Occurs (.ofPath ⟨diagram, e⟩ path) ∨
          (Value.relations id).Occurs (.ofPath ⟨diagram, e⟩ path) → diagram.Has id) ∧
      ∀ path segment id, (Value.element id).Occurs (.ofPath ⟨diagram, e⟩ (path ++ [segment])) →
        diagram.HasFor segment id) ∧
    ∀ maxDepth history rule,
      let analyzer := (Analyzer.new maxDepth).after history
      (∀ e ∈ diagram.elements,
        (recordElement maxDepth ⟨diagram, e⟩ analyzer.scope rule).value =
          satisfies maxDepth analyzer.scope rule ⟨diagram, e⟩ ∧
        ∀ event ∈ (recordElement maxDepth ⟨diagram, e⟩ analyzer.scope rule).events,
          event.Stores (Value.Grounded ⟨diagram, e⟩)) ∧
      ∀ threats, (record analyzer rule diagram threats).value = analyzer.evaluate rule diagram threats ∧
        ∀ event ∈ (record analyzer rule diagram threats).events,
          ∃ e ∈ diagram.elements, event.Stores (Value.Grounded ⟨diagram, e⟩) := by
  refine ⟨fun e member => ⟨fun path => Value.has_of_ofPath checked member path,
    fun path segment id occurs => Value.hasFor_of_ofPath checked member occurs⟩, ?_⟩
  intro maxDepth history rule analyzer
  obtain ⟨idle, -⟩ : analyzer.scope.frames = [] ∧ analyzer.maxDepth = maxDepth := after_idle rfl history
  refine ⟨fun e member => ⟨recordElement_value .., ?_⟩, fun threats => ⟨record_value .., ?_⟩⟩
  · exact recordElement_stores maxDepth (Value.keeps_grounded checked member) idle rule
  · intro event member
    rw [record] at member
    split at member
    · cases member
    · have keeps : ∀ e ∈ diagram.ofCategory rule.category,
          Context.Keeps ⟨diagram, e⟩ (Value.Grounded ⟨diagram, e⟩) :=
        fun e inside => Value.keeps_grounded checked (List.mem_of_mem_filter inside)
      obtain ⟨e, inside, stores⟩ := recordElements_stores _ keeps idle rule _ event member
      exact ⟨e, List.mem_of_mem_filter inside, stores⟩

/-- A dataflow from an entity to itself. -/
def loopFlow : Element :=
  ⟨"d", ⟨.dataflow, "arrow", none, []⟩, [("destination", .one "e"), ("source", .one "e")], []⟩

/-- The zone of the entity is its own parent. -/
def loopDiagram : Diagram :=
  ⟨[⟨"z", ⟨.zone, "frame", none, []⟩, [("entities", .many ["e"]), ("parent", .one "z")], []⟩,
    ⟨"e", ⟨.entity, "box", none, []⟩, [("dataflows", .many ["d"]), ("zone", .one "z")], []⟩, loopFlow], by decide⟩

/-- Binds the zone that a dataflow comes from, and in a list of its own the dataflows of that zone. -/
def loopRule : Rule :=
  ⟨"v1", "ThreatRule", ⟨"loop", "Loop", none, none, true⟩, "exposure", .dataflow,
    .list .all [.binding "ZONE = $.attached.source.attached.zone.attached.parent",
      .list .any [.binding "FLOWS = ZONE.attached.entities.attached.dataflows", .design "FLOWS.id == $.id"]]⟩

/-- Both bindings are made, and the comparison holds. -/
theorem record_grounded_loop :
    loopDiagram.relationCheck = [] ∧
      loopDiagram.HasFor "zone" "z" ∧
      (recordElement 3 ⟨loopDiagram, loopFlow⟩ .empty loopRule).value.1 = true ∧
      ((recordElement 3 ⟨loopDiagram, loopFlow⟩ .empty loopRule).events.map fun
        | .bound _ (.ok after) => after.frames.map (·.bindings.length)
        | _ => []) = [[1, 0], [1, 1, 0], [], []] ∧
      ∀ event ∈ (recordElement 3 ⟨loopDiagram, loopFlow⟩ .empty loopRule).events,
        event.Stores (Value.Grounded ⟨loopDiagram, loopFlow⟩) := by
  have checked : loopDiagram.relationCheck = [] := by decide
  have flow : loopFlow ∈ loopDiagram.elements := by simp [loopDiagram]
  obtain ⟨paths, runs⟩ := record_grounded checked
  have zone : (Value.element "z").Occurs
      (.ofPath ⟨loopDiagram, loopFlow⟩ (["attached", "source", "attached"] ++ ["zone"])) := .here
  exact ⟨checked, (paths loopFlow flow).2 _ _ _ zone, by decide +kernel, by decide +kernel,
    ((runs 3 [] loopRule).1 loopFlow flow).2⟩

end Analyzer
end ThreatModel
