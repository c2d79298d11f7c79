import ThreatModel.Proofs.Document.Fields

/-!
# Records

A record is read from a table part by part. Main statements: the fields are taken into slots exactly if the slots hold
what the fields read as; and if two tables name the same parts and the same record is made of both, each part of one
reads as that part of the other.
-/

namespace ThreatModel

theorem exists_left_of_forall₂ {α β : Type} {related : α → β → Prop} {lefts : List α} {rights : List β}
    (all : List.Forall₂ related lefts rights) {right : β} (member : right ∈ rights) :
    ∃ left ∈ lefts, related left right := by
  induction all with
  | nil => cases member
  | cons first _ ih =>
    rcases List.mem_cons.mp member with rfl | member
    · exact ⟨_, List.mem_cons_self, first⟩
    · obtain ⟨left, there, holds⟩ := ih member
      exact ⟨left, List.mem_cons_of_mem _ there, holds⟩

theorem exists_right_of_forall₂ {α β : Type} {related : α → β → Prop} {lefts : List α} {rights : List β}
    (all : List.Forall₂ related lefts rights) {left : α} (member : left ∈ lefts) :
    ∃ right ∈ rights, related left right :=
  exists_left_of_forall₂ all.flip member

theorem forall₂_of_mem {α β : Type} {related other : α → β → Prop} {lefts : List α} {rights : List β}
    (all : List.Forall₂ related lefts rights)
    (implies : ∀ left ∈ lefts, ∀ right, related left right → other left right) : List.Forall₂ other lefts rights := by
  induction all with
  | nil => exact .nil
  | cons first _ ih =>
    obtain ⟨here, there⟩ := List.forall_mem_cons.mp implies
    exact .cons (here _ first) (ih there)

theorem exists_forall₂ {α β : Type} {related : α → β → Prop} {lefts : List α}
    (exist : ∀ left ∈ lefts, ∃ right, related left right) : ∃ rights, List.Forall₂ related lefts rights := by
  induction lefts with
  | nil => exact ⟨[], .nil⟩
  | cons left rest ih =>
    obtain ⟨⟨right, first⟩, exist⟩ := List.forall_mem_cons.mp exist
    obtain ⟨rights, all⟩ := ih exist
    exact ⟨right :: rights, .cons first all⟩

/-- How a record is read: the parts that it has, what each of them reads as, and the slots that hold them until the
record is made. -/
structure Record (ι σ α : Type) where
  name : ι → String
  Content : ι → Type
  read : (part : ι) → Node → Except Fault (Content part)
  step : σ → String → Node → Except Fault σ
  get : σ → (part : ι) → Option (Content part)
  start : σ
  finish : σ → Except Fault α
  /-- Whether a value is passed over under a name that is none of the record's. -/
  passes : Node → Bool
  fills : ∀ slots field value next, step slots field value = .ok next →
    ∀ part, Node.Fills (name part) (read part) field value (get slots part) (get next part)
  known : ∀ slots field value next, step slots field value = .ok next →
    (∀ part, field ≠ name part) → passes value = true
  takes : ∀ slots part value content, get slots part = none → read part value = .ok content →
    ∃ next, step slots (name part) value = .ok next
  skips : ∀ slots field value, (∀ part, field ≠ name part) → passes value = true →
    ∃ next, step slots field value = .ok next
  vacant : ∀ part, get start part = none
  ext : ∀ slots others, (∀ part, get slots part = get others part) → slots = others
  /-- The record tells what was in the slots that are full. -/
  tells : ∀ slots others value, finish slots = .ok value → finish others = .ok value →
    (∀ part, (get slots part).isSome = (get others part).isSome) → slots = others

namespace Record

variable {ι σ α : Type}

/-- The slots hold what the fields read as. -/
structure Holds (record : Record ι σ α) (fields : List (String × Node)) (slots : σ) : Prop where
  once : ∀ part, (fields.map Prod.fst).count (record.name part) ≤ 1
  read : ∀ part value, (record.name part, value) ∈ fields →
    ∃ content, record.get slots part = some content ∧ record.read part value = .ok content
  passed : ∀ field ∈ fields, (∀ part, field.1 ≠ record.name part) → record.passes field.2 = true
  absent : ∀ part, record.name part ∉ fields.map Prod.fst → record.get slots part = none

variable {record : Record ι σ α} {fields others : List (String × Node)} {slots last : σ}

theorem holds_of_fill (run : Node.fill record.step record.start fields = .ok slots) : record.Holds fields slots := by
  have fills (part : ι) (slots : σ) (field : String) (value : Node) (next : σ)
      (stepped : record.step slots field value = .ok next) := record.fills slots field value next stepped part
  refine ⟨fun part => ?_, fun part value member => ?_, ?_, fun part absent => ?_⟩
  · exact Node.once_of_fill (record.get · part) (fills part) run
  · exact Node.read_of_fill (record.get · part) (fills part) run member
  · exact Node.forall_of_fill (fun field value => (∀ part, field ≠ record.name part) → record.passes value = true)
      record.known run
  · exact Node.vacant_of_fill (record.get · part) (fills part) (record.vacant part) run absent

theorem Holds.known (holds : record.Holds fields slots) (strict : ∀ value, record.passes value = false) :
    ∀ field ∈ fields, ∃ part, field.1 = record.name part := by
  intro field member
  by_contra unknown
  push Not at unknown
  have passed := holds.passed field member unknown
  rw [strict] at passed
  cases passed

/-- The names are distinct if they all are the record's. -/
theorem Holds.nodup (holds : record.Holds fields slots)
    (known : ∀ field ∈ fields, ∃ part, field.1 = record.name part) : (fields.map Prod.fst).Nodup := by
  refine List.nodup_iff_count_le_one.mpr fun name => ?_
  by_cases present : name ∈ fields.map Prod.fst
  · obtain ⟨field, member, rfl⟩ := List.mem_map.mp present
    obtain ⟨part, named⟩ := known field member
    rw [named]
    exact holds.once part
  · rw [List.count_eq_zero_of_not_mem present]
    exact Nat.zero_le 1

/-- A slot is full exactly if the name of its part is there. -/
theorem Holds.isSome_get (holds : record.Holds fields slots) (part : ι) :
    (record.get slots part).isSome = true ↔ record.name part ∈ fields.map Prod.fst := by
  constructor
  · intro full
    by_contra absent
    rw [holds.absent part absent] at full
    cases full
  · intro present
    obtain ⟨⟨name, value⟩, member, rfl⟩ := List.mem_map.mp present
    obtain ⟨content, full, -⟩ := holds.read part value member
    rw [full]
    rfl

/-- A field reads as what its slot holds. -/
theorem Holds.read_eq_ok (holds : record.Holds fields slots) (part : ι) {content : record.Content part}
    (full : record.get slots part = some content) {value : Node} (member : (record.name part, value) ∈ fields) :
    record.read part value = .ok content := by
  obtain ⟨_, same, read⟩ := holds.read part value member
  rw [full] at same
  cases same
  exact read

/-- What a slot holds is what a field reads as. -/
theorem Holds.exists_value (holds : record.Holds fields slots) (part : ι) {content : record.Content part}
    (full : record.get slots part = some content) :
    ∃ value, (record.name part, value) ∈ fields ∧ record.read part value = .ok content := by
  obtain ⟨⟨name, value⟩, member, rfl⟩ := List.mem_map.mp ((holds.isSome_get part).mp (by rw [full]; rfl))
  exact ⟨value, member, holds.read_eq_ok part full member⟩

theorem Holds.unique (holds : record.Holds fields slots) (again : record.Holds fields last) : slots = last := by
  refine record.ext _ _ fun part => ?_
  by_cases present : record.name part ∈ fields.map Prod.fst
  · obtain ⟨⟨name, value⟩, member, rfl⟩ := List.mem_map.mp present
    obtain ⟨content, full, read⟩ := holds.read part value member
    obtain ⟨other, refull, found⟩ := again.read part value member
    rw [read] at found
    cases found
    rw [full, refull]
  · rw [holds.absent part present, again.absent part present]

/-- Where every part reads and comes once, the fields are taken into slots. -/
theorem exists_fill (once : ∀ part, (fields.map Prod.fst).count (record.name part) ≤ 1)
    (read : ∀ part value, (record.name part, value) ∈ fields → ∃ content, record.read part value = .ok content)
    (passed : ∀ field ∈ fields, (∀ part, field.1 ≠ record.name part) → record.passes field.2 = true) :
    ∃ slots, Node.fill record.step record.start fields = .ok slots := by
  refine Node.exists_fill fun before field isPrefix next run => ?_
  have member : field ∈ fields := isPrefix.subset (List.mem_append_right _ (List.mem_singleton_self field))
  by_cases known : ∃ part, field.1 = record.name part
  · obtain ⟨part, named⟩ := known
    have absent : record.name part ∉ before.map Prod.fst := by
      intro present
      have twice := (isPrefix.sublist.map Prod.fst).count_le (record.name part)
      rw [List.map_append, List.count_append, List.map_singleton, named, List.count_singleton_self] at twice
      have := List.count_pos_iff.mpr present
      have := once part
      omega
    obtain ⟨content, found⟩ := read part field.2 (named ▸ member)
    rw [named]
    exact record.takes next part field.2 content ((holds_of_fill run).absent part absent) found
  · push Not at known
    exact record.skips next field.1 field.2 known (passed field member known)

/-- Fields are taken into slots exactly if the slots hold what the fields read as. -/
theorem fill_eq_ok : Node.fill record.step record.start fields = .ok slots ↔ record.Holds fields slots := by
  refine ⟨holds_of_fill, fun holds => ?_⟩
  obtain ⟨last, run⟩ := exists_fill holds.once
    (fun part value member => (holds.read part value member).imp fun _ found => found.2) holds.passed
  rw [run, (holds_of_fill run).unique holds]

/-! ## Other values of the same parts -/

/-- Two fields name the same part of a record, if any. -/
def Paired (record : Record ι σ α) (field other : String × Node) : Prop :=
  ∀ part, field.1 = record.name part ↔ other.1 = record.name part

/-- Two fields say the same. -/
structure Alike (record : Record ι σ α) (field other : String × Node) : Prop where
  paired : record.Paired field other
  read : ∀ part, field.1 = record.name part → record.read part other.2 = record.read part field.2
  passed : (∀ part, field.1 ≠ record.name part) → record.passes other.2 = true

theorem count_of_paired (paired : List.Forall₂ record.Paired fields others) (part : ι) :
    (others.map Prod.fst).count (record.name part) = (fields.map Prod.fst).count (record.name part) := by
  induction paired with
  | nil => rfl
  | cons first _ ih => simp only [List.map_cons, List.count_cons, ih, beq_iff_eq, first part]

theorem mem_of_paired (paired : List.Forall₂ record.Paired fields others) (part : ι) :
    record.name part ∈ others.map Prod.fst ↔ record.name part ∈ fields.map Prod.fst := by
  rw [← List.count_pos_iff, ← List.count_pos_iff, count_of_paired paired]

theorem Holds.alike (holds : record.Holds fields slots) (alike : List.Forall₂ record.Alike fields others) :
    record.Holds others slots := by
  have paired := alike.imp fun _ _ alike => alike.paired
  refine ⟨fun part => ?_, fun part value member => ?_, fun other member unknown => ?_, fun part absent => ?_⟩
  · rw [count_of_paired paired]
    exact holds.once part
  · obtain ⟨⟨name, old⟩, there, same⟩ := exists_left_of_forall₂ alike member
    obtain rfl : name = record.name part := (same.paired part).mpr rfl
    obtain ⟨content, full, read⟩ := holds.read part old there
    exact ⟨content, full, (same.read part rfl).trans read⟩
  · obtain ⟨field, there, same⟩ := exists_left_of_forall₂ alike member
    exact same.passed fun part named => unknown part ((same.paired part).mp named)
  · exact holds.absent part fun present => absent ((mem_of_paired paired part).mpr present)

/-- Of two tables that name the same parts the same record is made only if their slots are the same. -/
theorem Holds.eq_of_finish (holds : record.Holds fields slots) (again : record.Holds others last)
    (names : ∀ part, record.name part ∈ others.map Prod.fst ↔ record.name part ∈ fields.map Prod.fst) {value : α}
    (finished : record.finish slots = .ok value) (same : record.finish last = .ok value) : slots = last := by
  refine record.tells slots last value finished same fun part => ?_
  rw [Bool.eq_iff_iff, holds.isSome_get, again.isSome_get, names]

theorem Holds.read_eq (holds : record.Holds fields slots) (again : record.Holds others slots) {part : ι}
    {value other : Node} (member : (record.name part, value) ∈ fields) (there : (record.name part, other) ∈ others) :
    record.read part other = record.read part value := by
  obtain ⟨content, full, read⟩ := holds.read part value member
  rw [read, again.read_eq_ok part full there]

end Record

/-! ## Tables -/

namespace Node

/-- The field that an entry of a table is. -/
def Named (entry : Node × Node) (field : String × Node) : Prop :=
  entry.1.text = .ok field.1 ∧ entry.2 = field.2

variable {σ α : Type} {step : σ → String → Node → Except Fault σ} {slots last : σ} {entries : List (Node × Node)}

theorem foldlM_of_named {fields : List (String × Node)} (named : List.Forall₂ Named entries fields) :
    entries.foldlM (fun slots (key, value) => do step slots (← key.text) value) slots = fill step slots fields := by
  induction named generalizing slots with
  | nil => rfl
  | cons first _ ih =>
    obtain ⟨name, same⟩ := first
    rw [List.foldlM_cons, fill, List.foldlM_cons]
    dsimp only
    rw [name, same]
    exact congrArg _ (funext fun _ => ih)

theorem exists_named
    (run : entries.foldlM (fun slots (key, value) => do step slots (← key.text) value) slots = .ok last) :
    ∃ fields, List.Forall₂ Named entries fields ∧ fill step slots fields = .ok last := by
  suffices ∃ fields, List.Forall₂ Named entries fields by
    obtain ⟨fields, named⟩ := this
    exact ⟨fields, named, foldlM_of_named named ▸ run⟩
  induction entries generalizing slots with
  | nil => exact ⟨[], .nil⟩
  | cons entry rest ih =>
    rw [List.foldlM_cons] at run
    obtain ⟨next, stepped, run⟩ := Except.bind_eq_ok.mp run
    obtain ⟨name, named, -⟩ := Except.bind_eq_ok.mp stepped
    obtain ⟨fields, all⟩ := ih run
    exact ⟨(name, entry.2) :: fields, .cons ⟨named, rfl⟩ all⟩

/-- A record is made of a table, unless nothing at all makes it. -/
theorem exists_table {names : List String} {finish : σ → Except Fault α} {node : Node} {made : α}
    (unmade : finish slots ≠ .ok made) (read : node.record .yaml names step slots finish = .ok made) :
    ∃ entries, node.untagged = .table entries ∧
      (entries.foldlM (fun slots (key, value) => do step slots (← key.text) value) slots >>= finish) = .ok made := by
  induction node using Node.untagged.induct with
  | case1 tag node ih => exact ih read
  | case2 node untagged =>
    rw [Node.untagged.eq_2 _ untagged]
    cases node with
    | table entries => exact ⟨entries, rfl, read⟩
    | scalar value =>
      rw [record] at read
      split at read
      · exact absurd read unmade
      · cases read
    | tagged tag node => exact absurd rfl (untagged tag node)
    | list nodes => cases read
    | unreadable => cases read
    | cut => cases read

/-- The tags of a record do not matter. -/
theorem record_untagged (format : Format) (names : List String) (finish : σ → Except Fault α) (node : Node) :
    node.untagged.record format names step slots finish = node.record format names step slots finish := by
  induction node using Node.untagged.induct with
  | case1 tag node ih => rw [untagged, ih, record]
  | case2 node untagged => rw [Node.untagged.eq_2 _ untagged]

end Node
end ThreatModel
