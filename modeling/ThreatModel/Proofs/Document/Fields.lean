import ThreatModel.Reading
import ThreatModel.Json
import ThreatModel.Proofs.Except
import Mathlib.Data.List.Induction
import Mathlib.Data.List.Infix
import Mathlib.Data.List.Nodup

/-!
# The fields of an object

A record is read from a table by taking its fields into slots, one after the other. Main statements: at the end a
slot holds what its field reads as, and nothing if there is no such field; and if no field meets a fault, all of them
together meet none. They are stated for fields of nodes first, and for the fields of objects from there.
-/

namespace ThreatModel

variable {σ α : Type}

namespace Node

/-- What a value does to a slot: under the name of the slot it fills the slot once, and under every other name it
leaves the slot alone. -/
def Fills (name : String) (read : Node → Except Fault α) (field : String) (value : Node)
    (before after : Option α) : Prop :=
  if field = name then before = none ∧ ∃ content, read value = .ok content ∧ after = some content
  else after = before

/-- Takes fields into slots. -/
def fill (step : σ → String → Node → Except Fault σ) (slots : σ) (fields : List (String × Node)) : Except Fault σ :=
  fields.foldlM (fun slots field => step slots field.1 field.2) slots

/-- What a slot holds of some fields. -/
def Held (read : Node → Except Fault α) (name : String) (fields : List (String × Node)) : Option α → Prop
  | none => name ∉ fields.map Prod.fst
  | some content => ∃ value, (name, value) ∈ fields ∧ read value = .ok content

theorem once_eq_ok {name : String} {slot filled : Option α} {read : Except Fault α} :
    Node.once name slot read = .ok filled ↔
      slot = none ∧ ∃ value, read = .ok value ∧ filled = some value := by
  cases slot with
  | some held => simp [once]
  | none => cases read <;> simp [once, bind, Except.bind, pure, Except.pure, eq_comm]

theorem Fills.of_once {name : String} {read : Node → Except Fault α} {value : Node} {before after : Option α}
    (taken : once name before (read value) = .ok after) : Fills name read name value before after := by
  rw [Fills, if_pos rfl]
  exact once_eq_ok.mp taken

theorem fills_iff_of_ne {name : String} {read : Node → Except Fault α} {field : String} {value : Node}
    {before after : Option α} (differs : field ≠ name) :
    Fills name read field value before after ↔ after = before := by
  rw [Fills, if_neg differs]

theorem Fills.of_ne {name : String} {read : Node → Except Fault α} {field : String} {value : Node} {slot : Option α}
    (differs : field ≠ name) : Fills name read field value slot slot :=
  (fills_iff_of_ne differs).mpr rfl

theorem Fills.map {β : Type} {name : String} {read : Node → Except Fault α} {field : String} {value : Node}
    {before after : Option α} (fills : Fills name read field value before after) (make : α → β) :
    Fills name (fun value => (read value).map make) field value (before.map make) (after.map make) := by
  unfold Fills at fills ⊢
  split at fills
  · rename_i same
    obtain ⟨rfl, content, found, rfl⟩ := fills
    rw [if_pos same]
    exact ⟨rfl, make content, congrArg (Except.map make) found, rfl⟩
  · rename_i differs
    rw [if_neg differs, fills]

variable {step : σ → String → Node → Except Fault σ} {slots last : σ} {fields : List (String × Node)}

theorem fill_cons_eq_ok {field : String × Node} :
    fill step slots (field :: fields) = .ok last ↔
      ∃ next, step slots field.1 field.2 = .ok next ∧ fill step next fields = .ok last := by
  rw [fill, List.foldlM_cons]
  exact Except.bind_eq_ok

theorem fill_concat_eq_ok {field : String × Node} :
    fill step slots (fields ++ [field]) = .ok last ↔
      ∃ next, fill step slots fields = .ok next ∧ step next field.1 field.2 = .ok last := by
  rw [fill, List.foldlM_append, Except.bind_eq_ok]
  simp [fill]

theorem forall_of_fill (known : String → Node → Prop)
    (knows : ∀ slots field value next, step slots field value = .ok next → known field value)
    (run : fill step slots fields = .ok last) : ∀ field ∈ fields, known field.1 field.2 := by
  induction fields generalizing slots with
  | nil => exact List.forall_mem_nil _
  | cons field rest ih =>
    obtain ⟨next, stepped, run⟩ := fill_cons_eq_ok.mp run
    exact List.forall_mem_cons.mpr ⟨knows _ _ _ _ stepped, ih run⟩

/-! ## What slots hold -/

section Slot

variable {name : String} {read : Node → Except Fault α} {get : σ → Option α}

/-- A slot that is full stays as it is, and its name does not come again. -/
theorem full_of_fill
    (fills : ∀ slots field value next, step slots field value = .ok next →
      Fills name read field value (get slots) (get next))
    {content : α} (full : get slots = some content) (run : fill step slots fields = .ok last) :
    get last = some content ∧ name ∉ fields.map Prod.fst := by
  induction fields generalizing slots with
  | nil =>
    cases run
    exact ⟨full, List.not_mem_nil⟩
  | cons field rest ih =>
    obtain ⟨next, stepped, run⟩ := fill_cons_eq_ok.mp run
    have filled := fills _ _ _ _ stepped
    unfold Fills at filled
    split at filled
    -- The name would come a second time.
    · rw [full] at filled
      cases filled.1
    · rename_i differs
      obtain ⟨kept, absent⟩ := ih (filled.trans full) run
      exact ⟨kept, List.not_mem_cons_of_ne_of_not_mem (Ne.symm differs) absent⟩

/-- A slot that was empty holds at the end what its field reads as. -/
theorem held_of_fill (get : σ → Option α)
    (fills : ∀ slots field value next, step slots field value = .ok next →
      Fills name read field value (get slots) (get next))
    (vacant : get slots = none) (run : fill step slots fields = .ok last) : Held read name fields (get last) := by
  induction fields generalizing slots with
  | nil =>
    cases run
    rw [vacant]
    exact List.not_mem_nil
  | cons field rest ih =>
    obtain ⟨next, stepped, run⟩ := fill_cons_eq_ok.mp run
    have filled := fills _ _ _ _ stepped
    unfold Fills at filled
    split at filled
    · rename_i same
      obtain ⟨-, content, found, full⟩ := filled
      rw [(full_of_fill fills full run).1]
      exact ⟨field.2, by simp [← same], found⟩
    · rename_i differs
      have held := ih (filled.trans vacant) run
      revert held
      cases get last with
      | none => exact fun absent => List.not_mem_cons_of_ne_of_not_mem (Ne.symm differs) absent
      | some content =>
        rintro ⟨value, member, found⟩
        exact ⟨value, List.mem_cons_of_mem _ member, found⟩

/-- A slot whose name does not come stays empty. -/
theorem vacant_of_fill (get : σ → Option α)
    (fills : ∀ slots field value next, step slots field value = .ok next →
      Fills name read field value (get slots) (get next))
    (vacant : get slots = none) (run : fill step slots fields = .ok last) (absent : name ∉ fields.map Prod.fst) :
    get last = none := by
  have held := held_of_fill get fills vacant run
  revert held
  cases get last with
  | none => exact fun _ => rfl
  | some content =>
    rintro ⟨value, member, -⟩
    exact absurd (List.mem_map_of_mem member) absent

/-- Each field of the name is what the slot holds at the end. -/
theorem read_of_fill (get : σ → Option α)
    (fills : ∀ slots field value next, step slots field value = .ok next →
      Fills name read field value (get slots) (get next))
    (run : fill step slots fields = .ok last) {value : Node} (member : (name, value) ∈ fields) :
    ∃ content, get last = some content ∧ read value = .ok content := by
  induction fields generalizing slots with
  | nil => cases member
  | cons field rest ih =>
    obtain ⟨next, stepped, more⟩ := fill_cons_eq_ok.mp run
    rcases List.mem_cons.mp member with rfl | member
    · have filled := fills _ _ _ _ stepped
      rw [Fills, if_pos rfl] at filled
      obtain ⟨-, content, found, full⟩ := filled
      exact ⟨content, (full_of_fill fills full more).1, found⟩
    · exact ih more member

/-- The name of a slot comes at most once. -/
theorem once_of_fill (get : σ → Option α)
    (fills : ∀ slots field value next, step slots field value = .ok next →
      Fills name read field value (get slots) (get next))
    (run : fill step slots fields = .ok last) : (fields.map Prod.fst).count name ≤ 1 := by
  induction fields generalizing slots with
  | nil => exact Nat.zero_le _
  | cons field rest ih =>
    obtain ⟨next, stepped, run⟩ := fill_cons_eq_ok.mp run
    rw [List.map_cons]
    by_cases same : field.1 = name
    · have filled := fills _ _ _ _ stepped
      rw [Fills, if_pos same] at filled
      obtain ⟨-, content, -, full⟩ := filled
      rw [same, List.count_cons_self, List.count_eq_zero_of_not_mem (full_of_fill fills full run).2]
    · rw [List.count_cons_of_ne same]
      exact ih run

end Slot

/-- Where each field is taken after those before it, all fields are. -/
theorem exists_fill
    (takes : ∀ before field, before ++ [field] <+: fields → ∀ next, fill step slots before = .ok next →
      ∃ last, step next field.1 field.2 = .ok last) :
    ∃ last, fill step slots fields = .ok last := by
  -- From the right: a field is taken into the slots that those before it leave.
  induction fields using List.reverseRecOn with
  | nil => exact ⟨slots, rfl⟩
  | append_singleton before field ih =>
    obtain ⟨next, run⟩ := ih fun earlier other isPrefix =>
      takes earlier other (isPrefix.trans (List.prefix_append _ _))
    obtain ⟨last, stepped⟩ := takes before field List.prefix_rfl next run
    exact ⟨last, fill_concat_eq_ok.mpr ⟨next, run, stepped⟩⟩

end Node

/-! ## Fields of objects -/

namespace Json

/-- Takes the fields of an object into slots. -/
def fill (step : σ → String → Node → Except Fault σ) (slots : σ) (fields : List (String × Json)) : Except Fault σ :=
  fields.foldlM (fun slots field => step slots field.1 field.2.toNode) slots

/-- What a slot holds of the fields of an object. -/
def Held (read : Node → Except Fault α) (name : String) (fields : List (String × Json)) : Option α → Prop
  | none => name ∉ fields.map Prod.fst
  | some content => ∃ value, (name, value) ∈ fields ∧ read value.toNode = .ok content

variable {step : σ → String → Node → Except Fault σ} {slots last : σ} {fields : List (String × Json)}

/-- The fields with the nodes of their values. -/
def nodes (fields : List (String × Json)) : List (String × Node) :=
  fields.map fun field => (field.1, field.2.toNode)

theorem fill_nodes : Node.fill step slots (nodes fields) = fill step slots fields := List.foldlM_map

theorem map_fst_nodes : (nodes fields).map Prod.fst = fields.map Prod.fst := by
  rw [nodes, List.map_map]
  rfl

theorem held_nodes {read : Node → Except Fault α} {name : String} {slot : Option α} :
    Node.Held read name (nodes fields) slot ↔ Held read name fields slot := by
  cases slot with
  | none => rw [Node.Held, map_fst_nodes, Held]
  | some content =>
    constructor
    · rintro ⟨_, member, found⟩
      obtain ⟨⟨_, value⟩, there, ⟨⟩⟩ := List.mem_map.mp member
      exact ⟨value, there, found⟩
    · rintro ⟨value, member, found⟩
      exact ⟨value.toNode, List.mem_map_of_mem member, found⟩

theorem foldlM_fieldNodes (slots : σ) (fields : List (String × Json)) :
    (fieldNodes fields).foldlM (fun slots (key, value) => do step slots (← key.text) value) slots =
      fill step slots fields := by
  induction fields generalizing slots with
  | nil => rfl
  | cons field rest ih =>
    rw [fieldNodes, List.foldlM_cons, fill, List.foldlM_cons]
    exact congrArg _ (funext ih)

theorem forall_of_fill {known : String → Prop}
    (knows : ∀ slots field value next, step slots field value = .ok next → known field)
    (run : fill step slots fields = .ok last) : ∀ field ∈ fields, known field.1 := by
  intro field member
  rw [← fill_nodes] at run
  exact Node.forall_of_fill (fun name _ => known name) knows run _ (List.mem_map_of_mem member)

theorem record_object (format : Format) (names : List String) (finish : σ → Except Fault α)
    (fields : List (String × Json)) :
    (object fields).toNode.record format names step slots finish = (fill step slots fields >>= finish) := by
  rw [toNode, Node.record, foldlM_fieldNodes]

theorem text_toNode {value : Json} {content : String} :
    value.toNode.text = .ok content ↔ value = .text content := by
  cases value <;> simp [toNode, Node.text, Node.mismatch, Scalar.ofDatum, Scalar.ofText]

section Slot

variable {name : String} {read : Node → Except Fault α}

/-- A slot that was empty holds at the end what its field reads as. -/
theorem held_of_fill (get : σ → Option α)
    (fills : ∀ slots field value next, step slots field value = .ok next →
      Node.Fills name read field value (get slots) (get next))
    (vacant : get slots = none) (run : fill step slots fields = .ok last) : Held read name fields (get last) := by
  rw [← fill_nodes] at run
  exact held_nodes.mp (Node.held_of_fill get fills vacant run)

theorem Held.read_of_mem {slot : Option α} (held : Held read name fields slot)
    (nodup : (fields.map Prod.fst).Nodup) {value : Json} (member : (name, value) ∈ fields) :
    ∃ content, slot = some content ∧ read value.toNode = .ok content := by
  cases slot with
  | none => exact absurd (List.mem_map_of_mem member) held
  | some content =>
    obtain ⟨other, there, found⟩ := held
    cases List.inj_on_of_nodup_map nodup member there rfl
    exact ⟨content, rfl, found⟩

theorem Held.eq_some {slot : Option α} (held : Held read name fields slot) (nodup : (fields.map Prod.fst).Nodup)
    {content : α} : slot = some content ↔ ∃ value, (name, value) ∈ fields ∧ read value.toNode = .ok content := by
  constructor
  · rintro rfl
    exact held
  · rintro ⟨value, member, found⟩
    obtain ⟨other, rfl, same⟩ := held.read_of_mem nodup member
    rw [found] at same
    cases same
    rfl

/-- Before a field of an object its slot is empty. -/
theorem Held.vacant {slot : Option α} {before : List (String × Json)} {value : Json}
    (held : Held read name before slot) (nodup : (fields.map Prod.fst).Nodup)
    (isPrefix : before ++ [(name, value)] <+: fields) : slot = none := by
  cases slot with
  | none => rfl
  | some content =>
    obtain ⟨other, member, -⟩ := held
    have distinct := nodup.sublist (isPrefix.sublist.map Prod.fst)
    rw [List.map_append, List.nodup_append'] at distinct
    exact absurd (List.mem_singleton_self name) (distinct.2.2 (List.mem_map_of_mem member))

end Slot

/-- Where each field is taken after those before it, all fields are. -/
theorem exists_fill
    (takes : ∀ before field, before ++ [field] <+: fields → ∀ next, fill step slots before = .ok next →
      ∃ last, step next field.1 field.2.toNode = .ok last) :
    ∃ last, fill step slots fields = .ok last := by
  rw [← fill_nodes]
  refine Node.exists_fill fun before field isPrefix next run => ?_
  obtain ⟨rest, whole⟩ := isPrefix
  obtain ⟨_, after, rfl, split, -⟩ := List.map_eq_append_iff.mp whole.symm
  obtain ⟨earlier, last, rfl, rfl, single⟩ := List.map_eq_append_iff.mp split
  obtain ⟨other, rfl, rfl⟩ := List.map_eq_singleton_iff.mp single
  exact takes earlier other (List.prefix_append _ _) next (fill_nodes ▸ run)

end Json
end ThreatModel
