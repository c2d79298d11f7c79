import ThreatModel.Proofs.Document.Envelope
import ThreatModel.Proofs.Document.RetoldCondition

/-!
# The two passes

A document is read as an envelope first, and then as the record of its kind from what the envelope kept. Main
statement: the document of the two passes is the document that is read at once exactly if outside of the header each
scalar that is read as a text is spelt like free data, and no list is an empty scalar.
-/

namespace ThreatModel

open Yaml

/-! ## Records with a header -/

/-- A record that has a header, which it reads as an envelope does. -/
structure Record.Headed {ι σ α : Type} (record : Record ι σ α) where
  apiVersion : α → String
  kind : α → String
  header : α → Header
  strict : ∀ value, record.passes value = false
  unmade : ∀ made, record.finish record.start ≠ .ok made
  text : ∀ part value content, record.name part = "apiVersion" ∨ record.name part = "kind" →
    value.text = .ok content → record.read part (.scalar (.ofText content)) = record.read part value
  headers : ∀ part value header, record.name part = "metadata" → Header.ofNode .yaml value = .ok header →
    record.read part header.toJson.toNode = record.read part value
  states : ∀ fields slots made, record.Holds fields slots → record.finish slots = .ok made →
    (∃ value, ("apiVersion", value) ∈ fields ∧ value.text = .ok (apiVersion made)) ∧
    (∃ value, ("kind", value) ∈ fields ∧ value.text = .ok (kind made)) ∧
    ∃ value, ("metadata", value) ∈ fields ∧ Header.ofNode .yaml value = .ok (header made)

namespace Record

variable {ι σ α : Type} {record : Record ι σ α} {fields : List (String × Node)} {slots : σ} {made : α}

/-- What an envelope keeps makes the same record exactly if each other part reads the same. -/
theorem finish_toFields {envelope : Envelope} (headed : record.Headed) (holds : record.Holds fields slots)
    (finished : record.finish slots = .ok made) (kept : Envelope.Holds fields envelope) :
    (Node.fill record.step record.start envelope.toFields >>= record.finish) = .ok made ↔
      ∀ part value data, (record.name part, value) ∈ fields → record.name part ∉ Envelope.heads →
        Data.ofNode freeDepth value = .ok data → record.read part data.toNode = record.read part value := by
  have nodup := holds.nodup (holds.known headed.strict)
  rw [Except.bind_eq_ok]
  constructor
  · rintro ⟨last, run, again⟩ part value data member other told
    have heldAgain := fill_eq_ok.mp run
    obtain rfl := holds.eq_of_finish heldAgain (fun _ => kept.mem_toFields) finished again
    refine holds.read_eq heldAgain member ?_
    obtain ⟨⟨name, _⟩, there, rfl, free⟩ :=
      exists_right_of_forall₂ kept.others (List.mem_filter.mpr ⟨member, by simpa [Envelope.isOther] using other⟩)
    cases told.symm.trans free
    exact List.mem_append_right _ (List.mem_map.mpr ⟨_, there, rfl⟩)
  · intro reads
    refine ⟨slots, fill_eq_ok.mpr ⟨?_, ?_, ?_, ?_⟩, finished⟩
    · exact fun part => List.nodup_iff_count_le_one.mp (kept.nodup_toFields nodup) _
    · intro part value member
      obtain ⟨old, there, same⟩ : ∃ old, (record.name part, old) ∈ fields ∧
          record.read part value = record.read part old := by
        rw [Envelope.toFields] at member
        rcases List.mem_append.mp member with head | other
        · simp only [List.mem_cons, Prod.mk.injEq, List.not_mem_nil, or_false] at head
          rcases head with ⟨named, rfl⟩ | ⟨named, rfl⟩ | ⟨named, rfl⟩
          · obtain ⟨old, there, read⟩ := kept.apiVersion
            exact ⟨old, named ▸ there, headed.text part old _ (.inl named) read⟩
          · obtain ⟨old, there, read⟩ := kept.kind
            exact ⟨old, named ▸ there, headed.text part old _ (.inr named) read⟩
          · obtain ⟨old, there, read⟩ := kept.header
            exact ⟨old, named ▸ there, headed.headers part old _ named read⟩
        · obtain ⟨⟨name, data⟩, found, same⟩ := List.mem_map.mp other
          cases same
          obtain ⟨⟨_, old⟩, there, rfl, told⟩ := exists_left_of_forall₂ kept.others found
          obtain ⟨member, other⟩ := List.mem_filter.mp there
          exact ⟨old, member, reads part old data member (by simpa [Envelope.isOther] using other) told⟩
      obtain ⟨content, full, read⟩ := holds.read part old there
      exact ⟨content, full, same.trans read⟩
    · intro field member unknown
      obtain ⟨other, there, same⟩ := List.mem_map.mp (kept.mem_toFields.mp (List.mem_map_of_mem member))
      obtain ⟨part, named⟩ := holds.known headed.strict other there
      exact absurd (same.symm.trans named) (unknown part)
    · exact fun part absent => holds.absent part fun present => absent (kept.mem_toFields.mpr present)

/-- The two passes make the same record exactly if each part outside of the header is told again. -/
theorem passes_agree (headed : record.Headed) (holds : record.Holds fields slots)
    (finished : record.finish slots = .ok made) :
    (∃ envelope, Envelope.Holds fields envelope ∧
        (Node.fill record.step record.start envelope.toFields >>= record.finish) = .ok made) ↔
      ∀ part value, (record.name part, value) ∈ fields → record.name part ∉ Envelope.heads →
        value.Retold (record.read part) freeDepth := by
  constructor
  · rintro ⟨envelope, kept, again⟩ part value member other
    obtain ⟨⟨name, data⟩, there, rfl, told⟩ :=
      exists_right_of_forall₂ kept.others (List.mem_filter.mpr ⟨member, by simpa [Envelope.isOther] using other⟩)
    exact ⟨data, told, kept.distinct _ there,
      (finish_toFields headed holds finished kept).mp again part value data member other told⟩
  · intro retold
    have free : ∀ field ∈ fields.filter Envelope.isOther, ∃ other : String × Data,
        Envelope.Free field other ∧ other.2.isDistinct = true := by
      intro field found
      obtain ⟨member, other⟩ := List.mem_filter.mp found
      obtain ⟨part, named⟩ := holds.known headed.strict field member
      obtain ⟨data, told, distinct, -⟩ :=
        retold part field.2 (named ▸ member) (by simpa [Envelope.isOther, named] using other)
      exact ⟨(field.1, data), ⟨rfl, told⟩, distinct⟩
    obtain ⟨others, all⟩ := exists_forall₂ free
    -- The header of the envelope is taken from the record, and its other fields from what each part is as free data.
    obtain ⟨versionRead, kindRead, headerRead⟩ := headed.states fields slots made holds finished
    have kept : Envelope.Holds fields
        ⟨headed.apiVersion made, headed.kind made, headed.header made, others⟩ :=
      ⟨versionRead, kindRead, headerRead, all.imp fun _ _ found => found.1, fun other member => by
        obtain ⟨_, -, -, distinct⟩ := exists_left_of_forall₂ all member
        exact distinct⟩
    refine ⟨_, kept, (finish_toFields headed holds finished kept).mpr fun part value data member other told => ?_⟩
    obtain ⟨_, again, -, same⟩ := retold part value member other
    cases told.symm.trans again
    exact same

end Record

/-! ## Rules and threats -/

theorem Severity.eq_name (name : String) (severity : Severity) (found : ofName? name = some severity) :
    name = severity.name := by
  rw [ofName?] at found
  have same := List.find?_some found
  exact (of_decide_eq_true same).symm

theorem Rule.finish_start (rule : Rule) : finish {} ≠ .ok rule := by
  intro finished
  cases (finish_eq_ok.mp finished).1

theorem ThreatEntry.finish_start (entry : ThreatEntry) : finish {} ≠ .ok entry := by
  intro finished
  cases (finish_eq_ok.mp finished).1

def Rule.headed : Rule.record.Headed where
  apiVersion := Rule.apiVersion
  kind := Rule.kind
  header := Rule.header
  strict _ := rfl
  unmade := finish_start
  text part value content named read := by
    cases part with
    | apiVersion => exact read.symm
    | kind => exact read.symm
    | condition form => cases form <;> simp [record, Part.name, Form.key] at named
    | _ => simp [record, Part.name] at named
  headers part value header named read := by
    cases part with
    | header => exact (Header.ofNode_toJson .yaml header).trans read.symm
    | condition form => cases form <;> simp [record, Part.name, Form.key] at named
    | _ => simp [record, Part.name] at named
  states fields slots rule holds finished := by
    obtain ⟨apiVersion, kind, header, -⟩ := finish_eq_ok.mp finished
    exact ⟨holds.exists_value .apiVersion apiVersion, holds.exists_value .kind kind,
      holds.exists_value .header header⟩

def ThreatEntry.headed : ThreatEntry.record.Headed where
  apiVersion := ThreatEntry.apiVersion
  kind := ThreatEntry.kind
  header := ThreatEntry.header
  strict _ := rfl
  unmade := finish_start
  text part value content named read := by
    cases part with
    | apiVersion => exact read.symm
    | kind => exact read.symm
    | _ => simp [record, Part.name] at named
  headers part value header named read := by
    cases part with
    | header => exact (Header.ofNode_toJson .yaml header).trans read.symm
    | _ => simp [record, Part.name] at named
  states fields slots entry holds finished := by
    obtain ⟨apiVersion, kind, header, -⟩ := finish_eq_ok.mp finished
    exact ⟨holds.exists_value .apiVersion apiVersion, holds.exists_value .kind kind,
      holds.exists_value .header header⟩

namespace Document

/-- Whether a field outside of the header is the same when it is told again. -/
def isKeptField (kind : DocumentKind) (name : String) (value : Node) : Bool :=
  match kind, name with
  | .rule, "threat" | .rule, "element" | .threat, "severity" | .threat, "mitigation" => value.isKeptText
  | .rule, "design" => value.isKeptOption
  | .rule, "designs" | .rule, "either" => value.isKeptChildren
  | .threat, "compliance" => value.isKeptCompliance
  | _, _ => true

/-- Whether a document is the same when it is told again. -/
def isKept (kind : DocumentKind) (node : Node) : Bool :=
  match node.untagged with
  | .table entries => entries.all fun entry =>
      match entry.1.text with
      | .ok name => isKeptField kind name entry.2
      | .error _ => false
  | _ => false

/-- What a document says of its kind. -/
def kindName : Document → String
  | rule content => content.kind
  | threat entry => entry.kind

theorem isKeptField_head {kind : DocumentKind} {name : String} {value : Node} (head : name ∈ Envelope.heads) :
    isKeptField kind name value = true := by
  simp only [Envelope.heads, List.mem_cons, List.not_mem_nil, or_false] at head
  rcases head with rfl | rfl | rfl <;> cases kind <;> rfl

theorem isKept_iff {kind : DocumentKind} {node : Node} {entries : List (Node × Node)} {fields : List (String × Node)}
    (table : node.untagged = .table entries) (named : List.Forall₂ Node.Named entries fields) :
    isKept kind node = true ↔ ∀ field ∈ fields, isKeptField kind field.1 field.2 = true := by
  rw [isKept, table, List.all_eq_true]
  constructor
  · intro kept field member
    obtain ⟨entry, there, name, same⟩ := exists_left_of_forall₂ named member
    have keeps := kept entry there
    rw [name, same] at keeps
    exact keeps
  · intro kept entry member
    obtain ⟨field, there, name, same⟩ := exists_right_of_forall₂ named member
    rw [name, same]
    exact kept field there

end Document

theorem Rule.retold_part (part : Rule.Part) (value : Node) (content : part.Content) (sound : value.Sound)
    (read : part.read .yaml value = .ok content) (other : part.name ∉ Envelope.heads) :
    value.Retold (part.read .yaml) freeDepth ↔ Document.isKeptField .rule part.name value = true := by
  cases part with
  | threat => exact Node.retold_text read
  | category => exact Node.retold_choice Category.eq_name read
  | condition form => cases form with
    | designs => exact (Node.retold_condition_and_children sound).2 freeDepth _ read
    | either => exact (Node.retold_condition_and_children sound).2 freeDepth _ read
    | design => exact Node.retold_optional sound read
    | variableBinding => cases read
  | _ => exact absurd (by decide) other

theorem ThreatEntry.retold_part (part : ThreatEntry.Part) (value : Node) (content : part.Content) (sound : value.Sound)
    (read : part.read value = .ok content) (other : part.name ∉ Envelope.heads) :
    value.Retold part.read freeDepth ↔ Document.isKeptField .threat part.name value = true := by
  cases part with
  | severity => exact Node.retold_choice Severity.eq_name read
  | mitigation => exact Node.retold_text read
  | compliance => exact Node.retold_compliance sound read
  | _ => exact absurd (by decide) other

/-! ## Documents -/

/-- A field of a table, below its tags. -/
def Node.HasField (node : Node) (name : String) (value : Node) : Prop :=
  ∃ entries key, node.untagged = .table entries ∧ (key, value) ∈ entries ∧ key.text = .ok name

namespace Record

variable {ι σ α : Type} {record : Record ι σ α}

/-- The fields that a node is read from as a record. -/
structure Reads (record : Record ι σ α) (node : Node) (made : α) (fields : List (String × Node)) (slots : σ) :
    Prop where
  table : ∃ entries, node.untagged = .table entries ∧ List.Forall₂ Node.Named entries fields
  holds : record.Holds fields slots
  finished : record.finish slots = .ok made

variable {node : Node} {made : α} {fields : List (String × Node)} {slots : σ}

theorem exists_reads (headed : record.Headed) {names : List String}
    (direct : node.record .yaml names record.step record.start record.finish = .ok made) :
    ∃ fields slots, record.Reads node made fields slots := by
  obtain ⟨entries, table, run⟩ := Node.exists_table (headed.unmade made) direct
  obtain ⟨slots, run, finished⟩ := Except.bind_eq_ok.mp run
  obtain ⟨fields, named, filled⟩ := Node.exists_named run
  exact ⟨fields, slots, ⟨entries, table, named⟩, fill_eq_ok.mp filled, finished⟩

theorem Reads.hasField (reads : record.Reads node made fields slots) {name : String} {value : Node} :
    node.HasField name value ↔ (name, value) ∈ fields := by
  obtain ⟨entries, table, named⟩ := reads.table
  constructor
  · rintro ⟨_, key, same, member, spelt⟩
    cases table.symm.trans same
    obtain ⟨⟨_, _⟩, there, found, rfl⟩ := exists_right_of_forall₂ named member
    cases spelt.symm.trans found
    exact there
  · intro member
    obtain ⟨key, spelt, there⟩ := Node.exists_entry named member
    exact ⟨entries, key, table, there, spelt⟩

theorem Reads.nodup (reads : record.Reads node made fields slots) (headed : record.Headed) :
    (fields.map Prod.fst).Nodup :=
  reads.holds.nodup (reads.holds.known headed.strict)

theorem Reads.sound (reads : record.Reads node made fields slots) (sound : node.Sound) {name : String} {value : Node}
    (member : (name, value) ∈ fields) : value.Sound := by
  obtain ⟨entries, key, table, there, -⟩ := reads.hasField.mpr member
  have whole := sound.untagged
  rw [table] at whole
  cases whole with
  | table keys values => exact values _ there

theorem Reads.envelope (reads : record.Reads node made fields slots) (headed : record.Headed) {envelope : Envelope} :
    Envelope.ofNode node = .ok envelope ↔ Envelope.Holds fields envelope := by
  obtain ⟨entries, table, named⟩ := reads.table
  rw [← Envelope.finish_fill_eq_ok (reads.nodup headed), ← Node.foldlM_of_named named, Envelope.ofNode,
    ← Node.record_untagged, table]
  rfl

/-- The envelope has the kind and the header of the record that is read at once. -/
theorem Reads.envelope_eq (reads : record.Reads node made fields slots) (headed : record.Headed) {envelope : Envelope}
    (read : Envelope.ofNode node = .ok envelope) :
    envelope.kind = headed.kind made ∧ envelope.header = headed.header made := by
  have kept := (reads.envelope headed).mp read
  have same {name : String} {value other : Node} (member : (name, value) ∈ fields) (there : (name, other) ∈ fields) :
      value = other := by
    cases List.inj_on_of_nodup_map (reads.nodup headed) member there rfl
    rfl
  obtain ⟨-, ⟨kind, kindThere, kindFound⟩, header, headerThere, headerFound⟩ :=
    headed.states fields slots made reads.holds reads.finished
  constructor
  · obtain ⟨value, member, read⟩ := kept.kind
    rw [same member kindThere, kindFound] at read
    exact (Except.ok.inj read).symm
  · obtain ⟨value, member, read⟩ := kept.header
    rw [same member headerThere, headerFound] at read
    exact (Except.ok.inj read).symm

theorem record_toNode (envelope : Envelope) (names : List String) :
    envelope.toNode.record .yaml names record.step record.start record.finish =
      (Node.fill record.step record.start envelope.toFields >>= record.finish) := by
  obtain ⟨entries, written, named⟩ := envelope.named_toFields
  rw [written, ← Node.foldlM_of_named named]
  rfl

/-- A record is read again from what the envelope writes out exactly if each of its parts is kept. -/
theorem Reads.again_iff_isKept (reads : record.Reads node made fields slots) (headed : record.Headed)
    (sound : node.Sound) (kind : DocumentKind) (names : List String)
    (retold : ∀ part value content, value.Sound → record.read part value = .ok content →
      record.name part ∉ Envelope.heads →
      (value.Retold (record.read part) freeDepth ↔ Document.isKeptField kind (record.name part) value = true)) :
    (∃ envelope, Envelope.ofNode node = .ok envelope ∧
        envelope.toNode.record .yaml names record.step record.start record.finish = .ok made) ↔
      Document.isKept kind node = true := by
  obtain ⟨entries, table, named⟩ := reads.table
  have agree := passes_agree headed reads.holds reads.finished
  simp only [Document.isKept_iff table named, reads.envelope headed, record_toNode, agree]
  constructor
  · rintro again ⟨name, value⟩ member
    by_cases head : name ∈ Envelope.heads
    · exact Document.isKeptField_head head
    obtain ⟨part, rfl⟩ := reads.holds.known headed.strict _ member
    obtain ⟨content, -, read⟩ := reads.holds.read part value member
    exact (retold part value content (reads.sound sound member) read head).mp (again part value member head)
  · intro kept part value member other
    obtain ⟨content, -, read⟩ := reads.holds.read part value member
    exact (retold part value content (reads.sound sound member) read other).mpr (kept _ member)

end Record

theorem Yaml.readWith_eq_ok {α : Type} {read : Node → Except Fault α} {text : String} {value : α} :
    readWith read text = .ok value ↔ read (scan text).1 = .ok value ∧ (scan text).2 = true := by
  unfold readWith
  rw [Except.bind_eq_ok]
  constructor
  · rintro ⟨found, first, second⟩
    split at second
    · cases second
      exact ⟨first, ‹_›⟩
    · cases second
  · rintro ⟨first, whole⟩
    exact ⟨value, first, by rw [if_pos whole]; rfl⟩

theorem Envelope.document_of_kind {envelope : Envelope} {kind : DocumentKind} (named : envelope.kind = kind.name) :
    envelope.document = Document.ofNode kind envelope.toNode := by
  rw [document, named, DocumentKind.ofName?_name]

/-- The documents of a kind are read as a record. -/
structure Record.Documents {ι σ α : Type} (record : Record ι σ α) (kind : DocumentKind) where
  headed : record.Headed
  names : List String
  make : α → Document
  injective : Function.Injective make
  read : ∀ node, Document.ofNode kind node =
    (node.record .yaml names record.step record.start record.finish).map make
  kindName : ∀ made, (make made).kindName = headed.kind made
  header : ∀ made, (make made).header = headed.header made
  retold : ∀ part value content, value.Sound → record.read part value = .ok content →
    record.name part ∉ Envelope.heads →
    (value.Retold (record.read part) freeDepth ↔ Document.isKeptField kind (record.name part) value = true)

namespace Record.Documents

variable {ι σ α : Type} {record : Record ι σ α} {kind : DocumentKind} {node : Node} {document other : Document}

theorem passes_iff_isKept (documents : record.Documents kind) (sound : node.Sound)
    (direct : Document.ofNode kind node = .ok document) (named : document.kindName = kind.name) :
    (Envelope.ofNode node >>= Envelope.document) = .ok document ↔ Document.isKept kind node = true := by
  rw [documents.read, Except.map_eq_ok] at direct
  obtain ⟨content, read, rfl⟩ := direct
  obtain ⟨fields, slots, reads⟩ := exists_reads documents.headed read
  rw [documents.kindName] at named
  rw [Except.bind_eq_ok, ← reads.again_iff_isKept documents.headed sound kind documents.names documents.retold]
  refine exists_congr fun envelope => and_congr_right fun found => ?_
  rw [Envelope.document_of_kind ((reads.envelope_eq documents.headed found).1.trans named), documents.read,
    Except.map_eq_ok]
  simp only [documents.injective.eq_iff, exists_eq_right]

theorem header_eq (documents : record.Documents kind) (direct : Document.ofNode kind node = .ok document)
    (again : (Envelope.ofNode node >>= Envelope.document) = .ok other) : other.header = document.header := by
  rw [documents.read, Except.map_eq_ok] at direct
  obtain ⟨content, read, rfl⟩ := direct
  obtain ⟨fields, slots, reads⟩ := exists_reads documents.headed read
  obtain ⟨envelope, found, second⟩ := Except.bind_eq_ok.mp again
  rw [Envelope.document_header second, documents.header]
  exact (reads.envelope_eq documents.headed found).2

end Record.Documents

def Rule.documents : Rule.record.Documents .rule where
  headed := Rule.headed
  names := Rule.keys
  make := .rule
  injective _ _ same := Document.rule.inj same
  read _ := rfl
  kindName _ := rfl
  header _ := rfl
  retold := Rule.retold_part

def ThreatEntry.documents : ThreatEntry.record.Documents .threat where
  headed := ThreatEntry.headed
  names := ["apiVersion", "kind", "metadata", "severity", "mitigation", "compliance"]
  make := .threat
  injective _ _ same := Document.threat.inj same
  read _ := rfl
  kindName _ := rfl
  header _ := rfl
  retold := ThreatEntry.retold_part

namespace Document

variable {kind : DocumentKind} {node : Node} {document other : Document}

theorem passes_iff_isKept (sound : node.Sound) (direct : Document.ofNode kind node = .ok document)
    (named : document.kindName = kind.name) :
    (Envelope.ofNode node >>= Envelope.document) = .ok document ↔ isKept kind node = true := by
  cases kind with
  | rule => exact Rule.documents.passes_iff_isKept sound direct named
  | threat => exact ThreatEntry.documents.passes_iff_isKept sound direct named

theorem header_eq (direct : Document.ofNode kind node = .ok document)
    (again : (Envelope.ofNode node >>= Envelope.document) = .ok other) : other.header = document.header := by
  cases kind with
  | rule => exact Rule.documents.header_eq direct again
  | threat => exact ThreatEntry.documents.header_eq direct again

/-- The threat of a rule is the same after the two passes exactly if its id is spelt like free data. -/
theorem threat_eq_iff {rule again : Rule} (direct : Rule.ofNode .yaml node = .ok rule)
    (passed : (Envelope.ofNode node >>= Envelope.document) = .ok (.rule again)) {value : Node}
    (field : node.HasField "threat" value) : again.threat = rule.threat ↔ value.isKeptText = true := by
  obtain ⟨fields, slots, reads⟩ := Record.exists_reads Rule.headed direct
  obtain ⟨envelope, found, second⟩ := Except.bind_eq_ok.mp passed
  have kept := (reads.envelope Rule.headed).mp found
  -- The document is a rule, so it was read as one.
  obtain ⟨last, run, finished⟩ : ∃ last, Node.fill Rule.record.step Rule.record.start envelope.toFields = .ok last ∧
      Rule.finish last = .ok again := by
    rw [← Except.bind_eq_ok]
    refine (Record.record_toNode envelope Rule.keys).symm.trans ?_
    unfold Envelope.document at second
    split at second
    · cases second
    · rename_i kind _
      cases kind with
      | rule =>
        obtain ⟨content, read, made⟩ := Except.map_eq_ok.mp second
        cases made
        exact read
      | threat =>
        obtain ⟨entry, -, made⟩ := Except.map_eq_ok.mp second
        cases made
  have heldAgain := Record.fill_eq_ok.mp run
  have member := reads.hasField.mp field
  obtain ⟨⟨name, data⟩, there, rfl, told⟩ :=
    exists_right_of_forall₂ kept.others (List.mem_filter.mpr ⟨member, rfl⟩)
  have first : value.text = .ok rule.threat :=
    reads.holds.read_eq_ok .threat (Rule.finish_eq_ok.mp reads.finished).2.2.2.1 member
  have now : data.toNode.text = .ok again.threat :=
    heldAgain.read_eq_ok .threat (Rule.finish_eq_ok.mp finished).2.2.2.1
      (List.mem_append_right _ (List.mem_map.mpr ⟨_, there, rfl⟩))
  rw [← Node.retold_text first, Node.retold_of_told told (kept.distinct _ there), now, first, Except.ok.injEq]

theorem ofText_eq_ok {text : String} (whole : (Yaml.scan text).2 = true) :
    Document.ofText text = .ok document ↔
      (Envelope.ofNode (Yaml.scan text).1 >>= Envelope.document) = .ok document := by
  rw [Document.ofText, Envelope.ofText, Except.bind_eq_ok, Except.bind_eq_ok]
  simp only [Yaml.readWith_eq_ok, whole, and_true]

/-- A document of the two passes is the document that is read at once exactly if the text keeps it. Its header is the
same in any case, and a rule has the same threat exactly if the threat's id is spelt like free data. -/
theorem ofText_agrees {text : String} (direct : Yaml.readWith (Document.ofNode kind) text = .ok document)
    (named : document.kindName = kind.name) :
    (Document.ofText text = .ok document ↔ isKept kind (Yaml.scan text).1 = true) ∧
    (∀ other, Document.ofText text = .ok other → other.header = document.header) ∧
    ∀ content again value, document = .rule content → Document.ofText text = .ok (.rule again) →
      (Yaml.scan text).1.HasField "threat" value → (again.threat = content.threat ↔ value.isKeptText = true) := by
  obtain ⟨read, whole⟩ := Yaml.readWith_eq_ok.mp direct
  refine ⟨?_, fun other again => ?_, ?_⟩
  · rw [ofText_eq_ok whole]
    exact passes_iff_isKept (Yaml.sound_scan text) read named
  · exact header_eq read ((ofText_eq_ok whole).mp again)
  · rintro content again value rfl passed field
    cases kind with
    | rule =>
      obtain ⟨rule, found, made⟩ := Except.map_eq_ok.mp read
      cases made
      exact threat_eq_iff found ((ofText_eq_ok whole).mp passed) field
    | threat =>
      obtain ⟨entry, -, made⟩ := Except.map_eq_ok.mp read
      cases made

/-- The text of a rule whose threat is written as given. -/
def ruleText (threat : String) : String :=
  "apiVersion: v1\nkind: ThreatRule\nmetadata:\n  id: r\n  name: R\nthreat: " ++ threat ++
    "\nelement: entity\ndesign: 1 == 1\n"

/-- The text of a threat whose id is written as given. -/
def threatText (id : String) : String :=
  "apiVersion: v1\nkind: Threat\nmetadata:\n  id: " ++ id ++ "\n  name: T\nseverity: high\n"

/-- The rule that `ruleText` is meant for. -/
def ruleOf (threat : String) : Rule :=
  ⟨"v1", "ThreatRule", { id := "r", name := "R" }, threat, .entity, .design "1 == 1"⟩

/-- The threat that `threatText` is meant for. -/
def threatOf (id : String) : ThreatEntry :=
  { apiVersion := "v1", kind := "Threat", header := { id, name := "T" }, severity := .high }

/-- A rule with a decimal id for its threat is kept. One with a hexadecimal id is not, but has its header. -/
theorem ofText_agrees_decimal :
    Yaml.readWith (Document.ofNode .rule) (ruleText "31") = .ok (.rule (ruleOf "31")) ∧
    Document.ofText (ruleText "31") = .ok (.rule (ruleOf "31")) ∧
    Yaml.readWith (Document.ofNode .rule) (ruleText "0x1F") = .ok (.rule (ruleOf "0x1F")) ∧
    Document.ofText (ruleText "0x1F") ≠ .ok (.rule (ruleOf "0x1F")) ∧
    ∀ other, Document.ofText (ruleText "0x1F") = .ok other → other.header = (ruleOf "0x1F").header := by
  have decimal : Yaml.readWith (Document.ofNode .rule) (ruleText "31") = .ok (.rule (ruleOf "31")) := by
    decide +kernel
  have hexadecimal : Yaml.readWith (Document.ofNode .rule) (ruleText "0x1F") = .ok (.rule (ruleOf "0x1F")) := by
    decide +kernel
  obtain ⟨kept, -, -⟩ := ofText_agrees decimal rfl
  obtain ⟨respelt, header, -⟩ := ofText_agrees hexadecimal rfl
  exact ⟨decimal, kept.mpr (by decide +kernel), hexadecimal, mt respelt.mp (by decide +kernel), header⟩

/-- A rule and a threat with the same hexadecimal id: read at once, the rule has the id of the threat, and after the
two passes it has not. -/
theorem ofText_respells :
    Yaml.readWith (Document.ofNode .rule) (ruleText "0x1F") = .ok (.rule (ruleOf "0x1F")) ∧
    Document.ofText (ruleText "0x1F") = .ok (.rule (ruleOf "31")) ∧
    Document.ofText (threatText "0x1F") = .ok (.threat (threatOf "0x1F")) ∧
    Threat.find? [(threatOf "0x1F").toThreat] (ruleOf "31").threat = none := by
  refine ⟨?_, ?_, ?_, ?_⟩
  all_goals decide +kernel

end Document

end ThreatModel
