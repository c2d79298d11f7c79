import ThreatModel.Proofs.Document.Ordered

/-!
# Records with free fields

An open record keeps the fields that it has no name for as free data, beside the parts that it names. Main statement:
the fields of an object that is in order are taken into slots exactly if each part holds what its field reads as and
the free fields are held as they are, and the slots are told by that.
-/

namespace ThreatModel

/-- How an open record is read: the parts that it names, what each of them reads as, and the slots that hold them and
the free fields. -/
structure OpenRecord (ι σ : Type) where
  parts : List ι
  name : ι → String
  Content : ι → Type
  read : (part : ι) → Node → Except Fault (Content part)
  /-- How many containers may stand inside one another in a free field. -/
  depth : Option Nat
  step : σ → String → Node → Except Fault σ
  get : σ → (part : ι) → Option (Content part)
  free : σ → List (String × Json)
  start : σ
  mem_parts : ∀ part, part ∈ parts
  fills : ∀ slots field value next, step slots field value = .ok next →
    ∀ part, Node.Fills (name part) (read part) field value (get slots part) (get next part)
  keeps : ∀ slots part value next, step slots (name part) value = .ok next → free next = free slots
  gathers : ∀ slots field value next, (∀ part, field ≠ name part) → step slots field value = .ok next →
    ∃ found, Json.ofNode depth value = .ok found ∧ free next = Json.insertField field found (free slots)
  takes : ∀ slots part value content, get slots part = none → read part value = .ok content →
    ∃ next, step slots (name part) value = .ok next
  takesFree : ∀ slots field value found, (∀ part, field ≠ name part) → Json.ofNode depth value = .ok found →
    ∃ next, step slots field value = .ok next
  vacant : ∀ part, get start part = none
  bare : free start = []
  ext : ∀ slots others, (∀ part, get slots part = get others part) → free slots = free others → slots = others

/-- What the field of a name reads as, if there is one. -/
def Json.readField? {α : Type} (read : Node → Except Fault α) (name : String) (fields : List (String × Json)) :
    Except Fault (Option α) :=
  match field? name fields with
  | none => .ok none
  | some value => (read value.toNode).map some

theorem Json.readField?_eq_ok {α : Type} {read : Node → Except Fault α} {name : String}
    {fields : List (String × Json)} (nodup : (fields.map Prod.fst).Nodup) {slot : Option α} :
    readField? read name fields = .ok slot ↔ Held read name fields slot := by
  unfold readField?
  split
  · rename_i absent
    constructor
    · rintro ⟨⟩
      exact field?_eq_none.mp absent
    · intro held
      cases slot with
      | none => rfl
      | some content =>
        obtain ⟨value, member, -⟩ := held
        exact absurd (List.mem_map_of_mem member) (field?_eq_none.mp absent)
  · rename_i value found
    rw [field?_eq_some nodup] at found
    rw [Except.map_eq_ok]
    constructor
    · rintro ⟨content, read, rfl⟩
      exact ⟨value, found, read⟩
    · intro held
      obtain ⟨content, rfl, read⟩ := held.read_of_mem nodup found
      exact ⟨content, read, rfl⟩

theorem Json.readField?_eq_none {α : Type} {read : Node → Except Fault α} {name : String}
    {fields : List (String × Json)} : readField? read name fields = .ok none ↔ field? name fields = none := by
  unfold readField?
  split
  · rename_i absent
    exact iff_of_true rfl absent
  · rename_i value found
    rw [Except.map_eq_ok, found]
    simp

theorem Json.readField?_eq_some {α : Type} {read : Node → Except Fault α} {name : String}
    {fields : List (String × Json)} {content : α} :
    readField? read name fields = .ok (some content) ↔
      ∃ value, field? name fields = some value ∧ read value.toNode = .ok content := by
  unfold readField?
  split
  · rename_i absent
    simp [absent]
  · rename_i value found
    rw [Except.map_eq_ok, found]
    simp

namespace OpenRecord

variable {ι σ : Type}

/-- Whether a name is none of the record's. -/
def isFree (record : OpenRecord ι σ) (field : String) : Bool := record.parts.all fun part => field ≠ record.name part

/-- The slots hold what the fields read as, and the free fields as they are. -/
structure Holds (record : OpenRecord ι σ) (fields : List (String × Json)) (slots : σ) : Prop where
  part : ∀ part, Json.readField? (record.read part) (record.name part) fields = .ok (record.get slots part)
  free : record.free slots = fields.filter fun field => record.isFree field.1
  reads : ∀ field ∈ fields, record.isFree field.1 = true → Json.ofNode record.depth field.2.toNode = .ok field.2

variable {record : OpenRecord ι σ} {fields others : List (String × Json)} {slots last : σ}

theorem isFree_iff {field : String} : record.isFree field = true ↔ ∀ part, field ≠ record.name part := by
  simp [isFree, record.mem_parts]

theorem exists_name {field : String} (named : ¬record.isFree field = true) : ∃ part, field = record.name part := by
  rw [isFree_iff] at named
  push Not at named
  exact named

theorem not_isFree (part : ι) : record.isFree (record.name part) = false :=
  Bool.eq_false_iff.mpr fun free => isFree_iff.mp free part rfl

/-! ## Taking fields -/

/-- Free fields are gathered one by one. -/
theorem gathers_of_fill (values : ∀ field ∈ fields, field.2.Ordered)
    (run : Json.fill record.step slots fields = .ok last) :
    record.free last = (fields.filter fun field => record.isFree field.1).foldl
        (fun sorted (name, value) => Json.insertField name value sorted) (record.free slots) ∧
      ∀ field ∈ fields, record.isFree field.1 = true → Json.ofNode record.depth field.2.toNode = .ok field.2 := by
  induction fields generalizing slots with
  | nil =>
    cases run
    exact ⟨rfl, List.forall_mem_nil _⟩
  | cons field rest ih =>
    obtain ⟨ordered, values⟩ := List.forall_mem_cons.mp values
    rw [Json.fill, List.foldlM_cons] at run
    obtain ⟨next, stepped, run⟩ := Except.bind_eq_ok.mp run
    obtain ⟨gathered, reads⟩ := ih values run
    rw [gathered, List.filter_cons, List.forall_mem_cons]
    by_cases free : record.isFree field.1 = true
    · obtain ⟨found, read, inserted⟩ := record.gathers _ _ _ _ (isFree_iff.mp free) stepped
      cases Json.eq_of_ofNode ordered read
      rw [if_pos free, List.foldl_cons, inserted]
      exact ⟨rfl, fun _ => read, reads⟩
    · obtain ⟨part, named⟩ := exists_name free
      rw [if_neg free, record.keeps slots part field.2.toNode next (named ▸ stepped)]
      exact ⟨rfl, fun is => absurd is free, reads⟩

theorem held_of_fill (run : Json.fill record.step record.start fields = .ok slots) (part : ι) :
    Json.Held (record.read part) (record.name part) fields (record.get slots part) :=
  Json.held_of_fill (record.get · part)
    (fun slots field value next stepped => record.fills slots field value next stepped part) (record.vacant part) run

theorem holds_of_fill (ordered : fields.Pairwise (·.1 < ·.1)) (values : ∀ field ∈ fields, field.2.Ordered)
    (run : Json.fill record.step record.start fields = .ok slots) : record.Holds fields slots := by
  obtain ⟨gathered, reads⟩ := gathers_of_fill values run
  refine ⟨fun part => ?_, ?_, reads⟩
  · exact (Json.readField?_eq_ok (Json.nodup_of_pairwise ordered)).mpr (held_of_fill run part)
  · rw [gathered, record.bare]
    exact Json.sortFields_eq (ordered.filter _)

theorem Holds.unique (holds : record.Holds fields slots) (again : record.Holds fields last) : slots = last := by
  refine record.ext _ _ (fun part => ?_) (holds.free.trans again.free.symm)
  exact Except.ok.inj ((holds.part part).symm.trans (again.part part))

/-- The fields of an object that is in order are taken into slots exactly if the slots hold them. -/
theorem fill_eq_ok (ordered : fields.Pairwise (·.1 < ·.1)) (values : ∀ field ∈ fields, field.2.Ordered) :
    Json.fill record.step record.start fields = .ok slots ↔ record.Holds fields slots := by
  refine ⟨holds_of_fill ordered values, fun holds => ?_⟩
  have nodup := Json.nodup_of_pairwise ordered
  obtain ⟨last, run⟩ : ∃ last, Json.fill record.step record.start fields = .ok last := by
    refine Json.exists_fill fun before field isPrefix next run => ?_
    have member : field ∈ fields := isPrefix.subset (List.mem_append_right _ (List.mem_singleton_self field))
    by_cases free : record.isFree field.1 = true
    · exact record.takesFree next field.1 _ field.2 (isFree_iff.mp free) (holds.reads field member free)
    · obtain ⟨part, named⟩ := exists_name free
      obtain ⟨name, value⟩ := field
      subst named
      obtain ⟨content, -, read⟩ := ((Json.readField?_eq_ok nodup).mp (holds.part part)).read_of_mem nodup member
      exact record.takes next part _ content ((held_of_fill run part).vacant nodup isPrefix) read
  rw [run, (holds_of_fill ordered values run).unique holds]

/-! ## Other fields -/

/-- What is held under a free name. -/
theorem Holds.field?_free (holds : record.Holds fields slots) (ordered : fields.Pairwise (·.1 < ·.1)) (name : String) :
    Json.field? name (record.free slots) = if record.isFree name then Json.field? name fields else none := by
  rw [holds.free, Json.field?_filter (Json.nodup_of_pairwise ordered)]
  cases Json.field? name fields with
  | none => simp
  | some value => rw [Option.filter_some]

/-- The slots hold other fields too that agree on the free names, if each part is what its field reads as there. -/
theorem Holds.agree (holds : record.Holds fields slots) (ordered : fields.Pairwise (·.1 < ·.1))
    (ordered' : others.Pairwise (·.1 < ·.1)) (free : record.free last = record.free slots)
    (agree : ∀ name, record.isFree name = true → Json.field? name others = Json.field? name fields)
    (part : ∀ part, Json.readField? (record.read part) (record.name part) others = .ok (record.get last part)) :
    record.Holds others last := by
  have nodup := Json.nodup_of_pairwise ordered
  have nodup' := Json.nodup_of_pairwise ordered'
  refine ⟨part, ?_, fun field member isFree => ?_⟩
  · rw [free, holds.free]
    refine Json.eq_of_field? (ordered.filter _) (ordered'.filter _) fun name => ?_
    rw [Json.field?_filter nodup, Json.field?_filter nodup']
    by_cases isFree : record.isFree name = true
    · rw [agree name isFree]
    · simp [isFree]
  · have held := (Json.field?_eq_some nodup').mpr member
    rw [agree _ isFree] at held
    exact holds.reads field (Json.mem_of_field? held) isFree

/-- Named fields and the free ones are written as other fields that agree on the free names and hold the same under
the others. -/
theorem Holds.ofFields_eq (holds : record.Holds fields slots) (ordered : fields.Pairwise (·.1 < ·.1))
    (ordered' : others.Pairwise (·.1 < ·.1))
    (agree : ∀ name, record.isFree name = true → Json.field? name others = Json.field? name fields)
    {named : List (String × Json)} (nodup : (named.map Prod.fst).Nodup)
    (known : ∀ field ∈ named, ∃ part, field.1 = record.name part)
    (same : ∀ part, Json.field? (record.name part) named = Json.field? (record.name part) others) :
    Json.ofFields (named ++ record.free slots) = .object others := by
  have apart (name : String) (free : record.isFree name = true) : name ∉ named.map Prod.fst := by
    intro member
    obtain ⟨field, there, rfl⟩ := List.mem_map.mp member
    obtain ⟨part, key⟩ := known field there
    rw [key, not_isFree] at free
    cases free
  refine Json.ofFields_eq ?_ ordered' fun name => ?_
  · rw [List.map_append, List.nodup_append', holds.free]
    refine ⟨nodup, Json.nodup_of_pairwise (ordered.filter _), fun name inside outside => ?_⟩
    obtain ⟨field, free, rfl⟩ := List.mem_map.mp outside
    exact apart field.1 (List.mem_filter.mp free).2 inside
  · rw [Json.field?_append, holds.field?_free ordered]
    by_cases free : record.isFree name = true
    · rw [if_pos free, Json.field?_eq_none.mpr (apart name free), Option.none_or, agree name free]
    · obtain ⟨part, rfl⟩ := exists_name free
      rw [if_neg free, Option.or_none, same]

end OpenRecord
end ThreatModel
