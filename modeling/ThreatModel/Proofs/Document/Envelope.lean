import ThreatModel.Proofs.Document.Retelling

/-!
# Envelopes

What the first pass keeps of a document and what the second is given of it. Main statements: fields are read as an
envelope exactly if it has their header and the others as free data; and what is written out for the second pass has
the names that were read, each but once.
-/

namespace ThreatModel

open Yaml

namespace Envelope

/-- The names that every document has. -/
def heads : List String := ["apiVersion", "kind", "metadata"]

def isOther (field : String × Node) : Bool := field.1 ∉ heads

/-- A field and the free data that its value is. -/
def Free (field : String × Node) (other : String × Data) : Prop :=
  other.1 = field.1 ∧ Data.ofNode freeDepth field.2 = .ok other.2

/-- An envelope has the header of some fields, and the others as free data. -/
structure Holds (fields : List (String × Node)) (envelope : Envelope) : Prop where
  apiVersion : ∃ value, ("apiVersion", value) ∈ fields ∧ value.text = .ok envelope.apiVersion
  kind : ∃ value, ("kind", value) ∈ fields ∧ value.text = .ok envelope.kind
  header : ∃ value, ("metadata", value) ∈ fields ∧ Header.ofNode .yaml value = .ok envelope.header
  others : List.Forall₂ Free (fields.filter isOther) envelope.others
  distinct : ∀ other ∈ envelope.others, other.2.isDistinct = true

variable {fields : List (String × Node)} {slots last next : Slots} {field : String} {value : Node}

theorem step_fills (stepped : step slots field value = .ok next) :
    Node.Fills "apiVersion" Node.text field value slots.apiVersion next.apiVersion ∧
    Node.Fills "kind" Node.text field value slots.kind next.kind ∧
    Node.Fills "metadata" (Header.ofNode .yaml) field value slots.header next.header := by
  unfold step at stepped
  split at stepped
  case h_4 first second third =>
    obtain ⟨data, told, made⟩ := Except.bind_eq_ok.mp stepped
    cases made
    exact ⟨.of_ne first, .of_ne second, .of_ne third⟩
  all_goals
    obtain ⟨_, taken, made⟩ := Except.bind_eq_ok.mp stepped
    cases made
    refine ⟨?_, ?_, ?_⟩
    all_goals first | exact .of_once taken | exact .of_ne (by decide)

theorem step_other (other : isOther (field, value) = true) :
    step slots field value = (do
      let data ← Data.ofNode freeDepth value
      return { slots with others := (field, data) :: slots.others }) := by
  unfold step
  split
  case h_4 => rfl
  all_goals cases other

theorem others_of_step (head : isOther (field, value) = false) (stepped : step slots field value = .ok next) :
    next.others = slots.others := by
  unfold step at stepped
  split at stepped
  case h_4 first second third =>
    have other : isOther (field, value) = true := by
      simpa [isOther, heads] using ⟨first, second, third⟩
    rw [other] at head
    cases head
  all_goals
    obtain ⟨_, taken, made⟩ := Except.bind_eq_ok.mp stepped
    cases made
    rfl

theorem others_of_fill (run : Node.fill step slots fields = .ok last) :
    ∃ others, List.Forall₂ Free (fields.filter isOther) others ∧ last.others = others.reverse ++ slots.others := by
  induction fields generalizing slots with
  | nil =>
    cases run
    exact ⟨[], .nil, rfl⟩
  | cons field rest ih =>
    obtain ⟨next, stepped, more⟩ := Node.fill_cons_eq_ok.mp run
    obtain ⟨others, all, held⟩ := ih more
    cases other : isOther field with
    | true =>
      rw [step_other other] at stepped
      obtain ⟨data, told, made⟩ := Except.bind_eq_ok.mp stepped
      cases made
      refine ⟨(field.1, data) :: others, ?_, ?_⟩
      · rw [List.filter_cons_of_pos other]
        exact .cons ⟨rfl, told⟩ all
      · rw [held, List.reverse_cons, List.append_assoc]
        rfl
    | false =>
      refine ⟨others, ?_, ?_⟩
      · rwa [List.filter_cons_of_neg (by simp [other])]
      · rw [held, others_of_step other stepped]

theorem exists_fill (nodup : (fields.map Prod.fst).Nodup)
    (apiVersion : ∀ value, ("apiVersion", value) ∈ fields → ∃ content, value.text = .ok content)
    (kind : ∀ value, ("kind", value) ∈ fields → ∃ content, value.text = .ok content)
    (header : ∀ value, ("metadata", value) ∈ fields → ∃ content, Header.ofNode .yaml value = .ok content)
    (others : ∀ field ∈ fields, isOther field = true → ∃ data, Data.ofNode freeDepth field.2 = .ok data) :
    ∃ last, Node.fill step {} fields = .ok last := by
  refine Node.exists_fill fun before field isPrefix next run => ?_
  obtain ⟨name, value⟩ := field
  have member : (name, value) ∈ fields := isPrefix.subset (List.mem_append_right _ (List.mem_singleton_self _))
  have absent : name ∉ before.map Prod.fst := by
    have distinct := nodup.sublist (isPrefix.sublist.map Prod.fst)
    rw [List.map_append, List.nodup_append'] at distinct
    exact fun present => distinct.2.2 present (List.mem_singleton_self name)
  by_cases other : isOther (name, value)
  · obtain ⟨data, told⟩ := others _ member other
    rw [step_other other]
    exact ⟨_, Except.bind_eq_ok.mpr ⟨data, told, rfl⟩⟩
  · have named : name ∈ heads := by simpa [isOther] using other
    simp only [heads, List.mem_cons, List.not_mem_nil, or_false] at named
    rcases named with rfl | rfl | rfl
    · obtain ⟨content, read⟩ := apiVersion value member
      exact Node.exists_once (Node.vacant_of_fill Slots.apiVersion (fun _ _ _ _ stepped => (step_fills stepped).1)
        rfl run absent) read _
    · obtain ⟨content, read⟩ := kind value member
      exact Node.exists_once (Node.vacant_of_fill Slots.kind (fun _ _ _ _ stepped => (step_fills stepped).2.1)
        rfl run absent) read _
    · obtain ⟨content, read⟩ := header value member
      exact Node.exists_once (Node.vacant_of_fill Slots.header (fun _ _ _ _ stepped => (step_fills stepped).2.2)
        rfl run absent) read _

theorem finish_eq_ok {slots : Slots} {envelope : Envelope} :
    finish slots = .ok envelope ↔
      slots.apiVersion = some envelope.apiVersion ∧ slots.kind = some envelope.kind ∧
      slots.header = some envelope.header ∧ slots.others.reverse = envelope.others ∧
      (tableOf envelope.others).isDistinct = true := by
  simp only [finish, Except.bind_eq_ok, Node.required_eq_ok]
  constructor
  · rintro ⟨_, apiVersion, _, kind, _, header, made⟩
    split at made
    · cases made
      exact ⟨apiVersion, kind, header, rfl, ‹_›⟩
    · cases made
  · rintro ⟨apiVersion, kind, header, others, distinct⟩
    refine ⟨_, apiVersion, _, kind, _, header, ?_⟩
    rw [others, if_pos distinct]
    rfl

theorem isDistinct_tableOf {others : List (String × Data)} :
    (tableOf others).isDistinct = true ↔
      (others.map Prod.fst).Nodup ∧ ∀ other ∈ others, other.2.isDistinct = true := by
  have named := Data.entriesDistinct_named others []
  simp only [List.not_mem_nil, not_false_eq_true, implies_true, true_and] at named
  rw [tableOf, Data.isDistinct]
  exact named

theorem eq_of_free {found : List (String × Node)} {others again : List (String × Data)}
    (all : List.Forall₂ Free found others) (same : List.Forall₂ Free found again) : others = again := by
  refine List.right_unique_forall₂' ?_ all same
  rintro field ⟨name, data⟩ ⟨name', data'⟩ ⟨rfl, told⟩ ⟨rfl, retold⟩
  rw [told] at retold
  cases retold
  rfl

theorem map_fst_of_free {found : List (String × Node)} {others : List (String × Data)}
    (all : List.Forall₂ Free found others) : others.map Prod.fst = found.map Prod.fst := by
  induction all with
  | nil => rfl
  | cons first _ ih => rw [List.map_cons, List.map_cons, ih, first.1]

theorem Holds.nodup {envelope : Envelope} (holds : Holds fields envelope) (nodup : (fields.map Prod.fst).Nodup) :
    (envelope.others.map Prod.fst).Nodup := by
  rw [map_fst_of_free holds.others]
  exact nodup.sublist (List.filter_sublist.map Prod.fst)

/-- Fields are read as an envelope exactly if it has their header and the others as free data. -/
theorem finish_fill_eq_ok (nodup : (fields.map Prod.fst).Nodup) {envelope : Envelope} :
    (Node.fill step {} fields >>= finish) = .ok envelope ↔ Holds fields envelope := by
  rw [Except.bind_eq_ok]
  constructor
  · rintro ⟨slots, run, finished⟩
    obtain ⟨apiVersion, kind, header, others, distinct⟩ := finish_eq_ok.mp finished
    obtain ⟨found, free, held⟩ := others_of_fill run
    rw [List.append_nil] at held
    rw [held, List.reverse_reverse] at others
    subst others
    have version := Node.held_of_fill Slots.apiVersion (fun _ _ _ _ stepped => (step_fills stepped).1) rfl run
    have kinds := Node.held_of_fill Slots.kind (fun _ _ _ _ stepped => (step_fills stepped).2.1) rfl run
    have headers := Node.held_of_fill Slots.header (fun _ _ _ _ stepped => (step_fills stepped).2.2) rfl run
    rw [apiVersion] at version
    rw [kind] at kinds
    rw [header] at headers
    exact ⟨version, kinds, headers, free, (isDistinct_tableOf.mp distinct).2⟩
  · intro holds
    have same {name : String} {value other : Node} (member : (name, value) ∈ fields) (there : (name, other) ∈ fields) :
        value = other := by
      cases List.inj_on_of_nodup_map nodup member there rfl
      rfl
    obtain ⟨versionValue, versionMember, apiVersion⟩ := holds.apiVersion
    obtain ⟨kindValue, kindMember, kind⟩ := holds.kind
    obtain ⟨headerValue, headerMember, header⟩ := holds.header
    obtain ⟨slots, run⟩ := exists_fill nodup (fun _ member => ⟨_, same versionMember member ▸ apiVersion⟩)
      (fun _ member => ⟨_, same kindMember member ▸ kind⟩) (fun _ member => ⟨_, same headerMember member ▸ header⟩)
      fun field member other => by
        obtain ⟨found, -, -, told⟩ := exists_right_of_forall₂ holds.others (List.mem_filter.mpr ⟨member, other⟩)
        exact ⟨_, told⟩
    refine ⟨slots, run, finish_eq_ok.mpr ⟨?_, ?_, ?_, ?_, ?_⟩⟩
    · obtain ⟨_, full, read⟩ :=
        Node.read_of_fill Slots.apiVersion (fun _ _ _ _ stepped => (step_fills stepped).1) run versionMember
      rw [apiVersion] at read
      cases read
      exact full
    · obtain ⟨_, full, read⟩ :=
        Node.read_of_fill Slots.kind (fun _ _ _ _ stepped => (step_fills stepped).2.1) run kindMember
      rw [kind] at read
      cases read
      exact full
    · obtain ⟨_, full, read⟩ :=
        Node.read_of_fill Slots.header (fun _ _ _ _ stepped => (step_fills stepped).2.2) run headerMember
      rw [header] at read
      cases read
      exact full
    · obtain ⟨found, free, held⟩ := others_of_fill run
      rw [held, List.append_nil, List.reverse_reverse]
      exact eq_of_free free holds.others
    · exact isDistinct_tableOf.mpr ⟨holds.nodup nodup, holds.distinct⟩

/-! ## The second pass -/

/-- The fields of an envelope that is written out. -/
def toFields (envelope : Envelope) : List (String × Node) :=
  [("apiVersion", .scalar (.ofText envelope.apiVersion)), ("kind", .scalar (.ofText envelope.kind)),
    ("metadata", envelope.header.toJson.toNode)] ++ envelope.others.map fun other => (other.1, other.2.toNode)

theorem named_toFields (envelope : Envelope) :
    ∃ entries, envelope.toNode = .table entries ∧ List.Forall₂ Node.Named entries envelope.toFields := by
  refine ⟨_, rfl, .cons ⟨rfl, rfl⟩ (.cons ⟨rfl, rfl⟩ (.cons ⟨rfl, rfl⟩ ?_))⟩
  simp [List.forall₂_map_left_iff, List.forall₂_map_right_iff, List.forall₂_same, Node.Named, Node.text, Scalar.ofText]

theorem map_fst_toFields (envelope : Envelope) :
    envelope.toFields.map Prod.fst = heads ++ envelope.others.map Prod.fst := by
  simp [toFields, heads, Function.comp_def]

/-- What is written out has the names that were read. -/
theorem Holds.mem_toFields {fields : List (String × Node)} {envelope : Envelope} (holds : Holds fields envelope)
    {name : String} : name ∈ envelope.toFields.map Prod.fst ↔ name ∈ fields.map Prod.fst := by
  have others : name ∈ envelope.others.map Prod.fst ↔ name ∈ (fields.filter isOther).map Prod.fst := by
    rw [map_fst_of_free holds.others]
  rw [map_fst_toFields, List.mem_append, others]
  constructor
  · rintro (head | other)
    · simp only [heads, List.mem_cons, List.not_mem_nil, or_false] at head
      rcases head with rfl | rfl | rfl
      · obtain ⟨value, member, -⟩ := holds.apiVersion
        exact List.mem_map_of_mem member
      · obtain ⟨value, member, -⟩ := holds.kind
        exact List.mem_map_of_mem member
      · obtain ⟨value, member, -⟩ := holds.header
        exact List.mem_map_of_mem member
    · obtain ⟨field, member, rfl⟩ := List.mem_map.mp other
      exact List.mem_map_of_mem (List.mem_filter.mp member).1
  · intro present
    obtain ⟨field, member, rfl⟩ := List.mem_map.mp present
    by_cases other : isOther field
    · exact .inr (List.mem_map_of_mem (List.mem_filter.mpr ⟨member, other⟩))
    · exact .inl (by simpa [isOther] using other)

theorem Holds.nodup_toFields {fields : List (String × Node)} {envelope : Envelope} (holds : Holds fields envelope)
    (nodup : (fields.map Prod.fst).Nodup) : (envelope.toFields.map Prod.fst).Nodup := by
  rw [map_fst_toFields]
  refine List.Nodup.append (by decide) (holds.nodup nodup) fun name head other => ?_
  rw [map_fst_of_free holds.others] at other
  obtain ⟨field, member, rfl⟩ := List.mem_map.mp other
  have := (List.mem_filter.mp member).2
  simp_all [isOther]

end Envelope

end ThreatModel
