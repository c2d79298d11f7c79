import ThreatModel.Diagram
import ThreatModel.Proofs.Document.Header

/-!
# The order of relations that were read

Main statement: the relations of each element of a diagram that was read stand in the order of their names, one of
each name.
-/

namespace ThreatModel

namespace Node

/-- A record that was read was made of slots of which all is true that the steps keep. -/
theorem record_keeps {σ α : Type} {format : Format} {fields : List String}
    {step : σ → String → Node → Except Fault σ} {start : σ} {finish : σ → Except Fault α} (holds : σ → Prop)
    (kept : ∀ slots field value next, holds slots → step slots field value = .ok next → holds next)
    (held : holds start) {node : Node} {content : α}
    (read : node.record format fields step start finish = .ok content) :
    ∃ slots, holds slots ∧ finish slots = .ok content := by
  fun_induction record format fields step start finish node with
  | case1 entries =>
    obtain ⟨slots, run, finished⟩ := Except.bind_eq_ok.mp read
    refine ⟨slots, foldlM_keeps holds ?_ held run, finished⟩
    intro slots entry next held stepped
    obtain ⟨name, -, stepped⟩ := Except.bind_eq_ok.mp stepped
    exact kept slots name entry.2 next held stepped
  | case2 nodes positional =>
    obtain ⟨slots, run, finished⟩ := Except.bind_eq_ok.mp read
    refine ⟨slots, foldlM_keeps holds (fun slots field next => kept slots field.1 field.2 next) held run, ?_⟩
    split at finished
    · cases finished
    · cases finished
    · rename_i value made
      split at finished <;> cases finished
      exact made
  | case4 value vacant => exact ⟨start, held, read⟩
  | case6 tag node ih => exact ih read
  | _ => cases read

theorem exists_of_mem_mapM {ι α : Type} {read : ι → Except Fault α} {items : List ι} {contents : List α}
    (ran : items.mapM read = .ok contents) : ∀ content ∈ contents, ∃ item, read item = .ok content := by
  induction items generalizing contents with
  | nil =>
    cases ran
    exact List.forall_mem_nil _
  | cons item rest ih =>
    rw [List.mapM_cons] at ran
    obtain ⟨first, found, ran⟩ := Except.bind_eq_ok.mp ran
    obtain ⟨more, others, made⟩ := Except.bind_eq_ok.mp ran
    cases made
    exact List.forall_mem_cons.mpr ⟨⟨item, found⟩, ih others⟩

/-- Each item of a list that was read is what some node says. -/
theorem exists_of_mem_items {α : Type} {read : Node → Except Fault α} {node : Node} {contents : List α}
    (ran : node.items read = .ok contents) : ∀ content ∈ contents, ∃ item, read item = .ok content := by
  fun_induction items read node with
  | case1 nodes => exact exists_of_mem_mapM ran
  | case2 value vacant =>
    cases ran
    exact List.forall_mem_nil _
  | case4 tag node ih => exact ih ran
  | _ => cases ran

end Node

namespace Element

/-- The relations of an element stand in the order of their names, one of each name. -/
def Ordered (e : Element) : Prop := e.attached.Pairwise (·.1 < ·.1)

variable {name : String} {relation : Relation} {sorted : List (String × Relation)}

theorem mem_insertRelation {entry : String × Relation}
    (member : entry ∈ attachedOf.insertRelation name relation sorted) : entry.1 = name ∨ entry ∈ sorted := by
  fun_induction attachedOf.insertRelation name relation sorted with
  | case1 => exact .inl (List.mem_singleton.mp member ▸ rfl)
  | case2 key old rest before =>
    rcases List.mem_cons.mp member with rfl | inside
    · exact .inl rfl
    · exact .inr inside
  | case3 old rest =>
    rcases List.mem_cons.mp member with rfl | inside
    · exact .inl rfl
    · exact .inr (List.mem_cons_of_mem _ inside)
  | case4 key old rest notBefore apart ih =>
    rcases List.mem_cons.mp member with rfl | inside
    · exact .inr List.mem_cons_self
    · exact (ih inside).imp_right (List.mem_cons_of_mem _)

theorem pairwise_insertRelation (ordered : sorted.Pairwise (·.1 < ·.1)) :
    (attachedOf.insertRelation name relation sorted).Pairwise (·.1 < ·.1) := by
  fun_induction attachedOf.insertRelation name relation sorted with
  | case1 => exact List.pairwise_singleton _ _
  | case2 key old rest before =>
    refine .cons ?_ ordered
    intro entry member
    rcases List.mem_cons.mp member with rfl | inside
    · exact before
    · exact String.lt_trans before (List.rel_of_pairwise_cons ordered inside)
  | case3 old rest => exact .cons (fun entry inside => List.rel_of_pairwise_cons ordered inside) ordered.of_cons
  | case4 key old rest notBefore apart ih =>
    refine .cons ?_ (ih ordered.of_cons)
    intro entry member
    rcases mem_insertRelation member with named | inside
    · have atMost : key ≤ name := String.not_lt.mp notBefore
      rw [named]
      exact Classical.byContradiction fun least => apart (String.le_antisymm (String.not_lt.mp least) atMost)
    · exact List.rel_of_pairwise_cons ordered inside

theorem pairwise_attachedOf {format : Format} {node : Node} {attached : List (String × Relation)}
    (read : attachedOf format node = .ok attached) : attached.Pairwise (·.1 < ·.1) := by
  unfold attachedOf at read
  split at read
  · obtain ⟨fields, -, made⟩ := Except.bind_eq_ok.mp read
    cases made
    exact List.foldlRecOn fields _ .nil fun sorted ordered entry _ => pairwise_insertRelation ordered
  all_goals cases read

theorem step_attached {format : Format} {slots next : Slots} {field : String} {value : Node}
    (stepped : step format slots field value = .ok next) :
    next.attached = slots.attached ∨
      ∃ attached, attachedOf format value = .ok attached ∧ next.attached = some attached := by
  unfold step at stepped
  split at stepped
  case h_3 =>
    obtain ⟨_, taken, made⟩ := Except.bind_eq_ok.mp stepped
    obtain ⟨-, attached, read, rfl⟩ := Node.once_eq_ok.mp taken
    cases made
    exact .inr ⟨attached, read, rfl⟩
  all_goals
    obtain ⟨_, _, made⟩ := Except.bind_eq_ok.mp stepped
    cases made
    exact .inl rfl

theorem ordered_of_ofNode {format : Format} {node : Node} {e : Element} (read : ofNode format node = .ok e) :
    e.Ordered := by
  have kept (slots : Slots) (field : String) (value : Node) (next : Slots)
      (ordered : (slots.attached.getD []).Pairwise (·.1 < ·.1)) (stepped : step format slots field value = .ok next) :
      (next.attached.getD []).Pairwise (·.1 < ·.1) := by
    rcases step_attached stepped with same | ⟨attached, read, taken⟩
    · rw [same]
      exact ordered
    · rw [taken]
      exact pairwise_attachedOf read
  obtain ⟨slots, ordered, finished⟩ := Node.record_keeps _ kept .nil read
  obtain ⟨id, -, finished⟩ := Except.bind_eq_ok.mp finished
  obtain ⟨metadata, -, finished⟩ := Except.bind_eq_ok.mp finished
  cases finished
  exact ordered

end Element

namespace Diagram

variable {format : Format} {node : Node} {diagram : Diagram}

theorem elements_of_finish {slots : Option (List Element)} (finished : finish slots = .ok diagram) :
    diagram.elements = slots.getD [] := by
  simp only [finish, ofElements] at finished
  grind

/-- The relations of each element that was read stand in order. -/
theorem ordered_of_ofNode (read : ofNode format node = .ok diagram) : ∀ e ∈ diagram.elements, e.Ordered := by
  have kept (slots : Option (List Element)) (field : String) (value : Node) (next : Option (List Element))
      (ordered : ∀ e ∈ slots.getD [], e.Ordered) (stepped : step format slots field value = .ok next) :
      ∀ e ∈ next.getD [], e.Ordered := by
    unfold step at stepped
    split at stepped
    · obtain ⟨-, found, read, rfl⟩ := Node.once_eq_ok.mp stepped
      intro e member
      obtain ⟨item, read⟩ := Node.exists_of_mem_items read e member
      exact Element.ordered_of_ofNode read
    · obtain ⟨_, _, made⟩ := Except.bind_eq_ok.mp stepped
      cases made
      exact ordered
  obtain ⟨slots, ordered, finished⟩ := Node.record_keeps _ kept (List.forall_mem_nil _) read
  rw [elements_of_finish finished]
  exact ordered

end Diagram
end ThreatModel
