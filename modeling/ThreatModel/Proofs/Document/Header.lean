import ThreatModel.Catalog
import ThreatModel.Proofs.Document.Fields

/-!
# The header of a document

A document is read twice: its envelope first, then the record of its kind. Main statement: both readings
find the same header, so the id that is looked at first is the id of the document.
-/

namespace ThreatModel

namespace Node

/-- Texts that were written as a list are read again. -/
theorem texts_toNode (contents : List String) :
    Node.texts (Json.array (contents.map .text)).toNode = .ok contents := by
  rw [Json.toNode, texts, items]
  induction contents with
  | nil => rfl
  | cons content rest ih =>
    rw [List.map_cons, Json.itemNodes, List.mapM_cons, ih]
    rfl

theorem required_eq_ok {α : Type} {name : String} {slot : Option α} {value : α} :
    Node.required name slot = .ok value ↔ slot = some value := by
  cases slot <;> simp [required]

/-- What each field that is read leaves true is true at the end. -/
theorem foldlM_keeps {σ ι : Type} {step : σ → ι → Except Fault σ} (holds : σ → Prop)
    (kept : ∀ slots item next, holds slots → step slots item = .ok next → holds next)
    {items : List ι} {slots last : σ} (held : holds slots) (run : items.foldlM step slots = .ok last) :
    holds last := by
  induction items generalizing slots with
  | nil =>
    cases run
    exact held
  | cons item rest ih =>
    rw [List.foldlM_cons] at run
    obtain ⟨next, stepped, run⟩ := Except.bind_eq_ok.mp run
    exact ih (kept slots item next held stepped) run

end Node

namespace Header

/-- A header that was written is read again. -/
theorem ofNode_toJson (format : Format) (header : Header) :
    Header.ofNode format header.toJson.toNode = .ok header := by
  obtain ⟨id, name, description, tags, enabled⟩ := header
  cases tags with
  | none => cases description <;> rfl
  | some tags =>
    have read := Node.texts_toNode tags
    rw [Json.toNode] at read
    cases description
    all_goals
      simp only [toJson, Json.toNode, Json.fieldNodes, Header.ofNode, Node.record, List.foldlM_cons,
        List.foldlM_nil, Node.text, Scalar.ofText, step, Node.once, Node.optional, read,
        bind, Except.bind, pure, Except.pure]
      rfl

end Header

/-! ## Reading the record of a kind -/

/-- What a field does to the header that was read so far: the field of the header fills it once, every other
field leaves it alone. -/
def Header.Steps (format : Format) (field : String) (value : Node) (before after : Option Header) : Prop :=
  if field = "metadata" then
    before = none ∧ ∃ header, Header.ofNode format value = .ok header ∧ after = some header
  else after = before

theorem Rule.step_header {format : Format} {slots next : Rule.Slots} {field : String} {value : Node}
    (stepped : Rule.step format slots field value = .ok next) :
    Header.Steps format field value slots.header next.header := by
  simp only [Rule.step] at stepped
  split at stepped
  -- The field of the header.
  case h_3 =>
    obtain ⟨_, taken, made⟩ := Except.bind_eq_ok.mp stepped
    obtain ⟨vacant, header, read, rfl⟩ := Node.once_eq_ok.mp taken
    cases made
    exact ⟨vacant, header, read, rfl⟩
  -- A field that rules do not have.
  case h_9 => cases stepped
  all_goals
    obtain ⟨_, _, made⟩ := Except.bind_eq_ok.mp stepped
    cases made
    exact rfl

theorem Rule.finish_header {slots : Rule.Slots} {rule : Rule} (finished : Rule.finish slots = .ok rule) :
    slots.header = some rule.header := by
  obtain ⟨_, _, finished⟩ := Except.bind_eq_ok.mp finished
  obtain ⟨_, _, finished⟩ := Except.bind_eq_ok.mp finished
  obtain ⟨header, found, finished⟩ := Except.bind_eq_ok.mp finished
  obtain ⟨_, _, finished⟩ := Except.bind_eq_ok.mp finished
  obtain ⟨_, _, finished⟩ := Except.bind_eq_ok.mp finished
  obtain ⟨_, _, finished⟩ := Except.bind_eq_ok.mp finished
  cases finished
  exact Node.required_eq_ok.mp found

theorem ThreatEntry.step_header {format : Format} {slots next : ThreatEntry.Slots} {field : String}
    {value : Node} (stepped : ThreatEntry.step format slots field value = .ok next) :
    Header.Steps format field value slots.header next.header := by
  simp only [ThreatEntry.step] at stepped
  split at stepped
  -- The field of the header.
  case h_3 =>
    obtain ⟨_, taken, made⟩ := Except.bind_eq_ok.mp stepped
    obtain ⟨vacant, header, read, rfl⟩ := Node.once_eq_ok.mp taken
    cases made
    exact ⟨vacant, header, read, rfl⟩
  -- A field that these documents do not have.
  case h_7 => cases stepped
  all_goals
    obtain ⟨_, _, made⟩ := Except.bind_eq_ok.mp stepped
    cases made
    exact rfl

theorem ThreatEntry.finish_header {slots : ThreatEntry.Slots} {entry : ThreatEntry}
    (finished : ThreatEntry.finish slots = .ok entry) : slots.header = some entry.header := by
  obtain ⟨_, _, finished⟩ := Except.bind_eq_ok.mp finished
  obtain ⟨_, _, finished⟩ := Except.bind_eq_ok.mp finished
  obtain ⟨header, found, finished⟩ := Except.bind_eq_ok.mp finished
  obtain ⟨_, _, finished⟩ := Except.bind_eq_ok.mp finished
  cases finished
  exact Node.required_eq_ok.mp found

namespace Envelope

/-- What is read from an envelope that was written out has the envelope's header. -/
theorem record_header {σ α : Type} {envelope : Envelope} {format : Format} {fields : List String}
    {step : σ → String → Node → Except Fault σ} {start : σ} {finish : σ → Except Fault α} {value : α}
    {seen : σ → Option Header} (headerOf : α → Header)
    (steps : ∀ slots field value next, step slots field value = .ok next →
      Header.Steps format field value (seen slots) (seen next))
    (ends : ∀ slots value, finish slots = .ok value → seen slots = some (headerOf value))
    (read : envelope.toNode.record format fields step start finish = .ok value) :
    headerOf value = envelope.header := by
  rw [toNode, Node.record] at read
  obtain ⟨last, run, finished⟩ := Except.bind_eq_ok.mp read
  simp only [List.cons_append, List.nil_append, List.foldlM_cons, Node.text, Scalar.ofText] at run
  obtain ⟨versioned, _, run⟩ := Except.bind_eq_ok.mp run
  obtain ⟨named, _, run⟩ := Except.bind_eq_ok.mp run
  obtain ⟨headed, metadata, run⟩ := Except.bind_eq_ok.mp run
  have filled : seen headed = some envelope.header := by
    obtain ⟨_, header, found, filled⟩ := steps named "metadata" _ headed metadata
    rw [Header.ofNode_toJson] at found
    cases found
    exact filled
  -- A second header would be a fault, so the fields behind it leave the first one alone.
  have held : seen last = some envelope.header := by
    refine Node.foldlM_keeps (fun slots => seen slots = some envelope.header) ?_ filled run
    intro slots entry next held stepped
    obtain ⟨field, _, stepped⟩ := Except.bind_eq_ok.mp stepped
    have moved := steps slots field entry.2 next stepped
    unfold Header.Steps at moved
    split at moved
    · rw [held] at moved
      cases moved.1
    · exact moved.trans held
  exact (Option.some.inj (held.symm.trans (ends last value finished))).symm

/-- The document has the header of its envelope. -/
theorem document_header {envelope : Envelope} {document : Document}
    (read : envelope.document = .ok document) : document.header = envelope.header := by
  unfold Envelope.document at read
  split at read
  · cases read
  · rename_i kind _
    cases kind with
    | rule =>
      obtain ⟨rule, found, rfl⟩ := Except.map_eq_ok.mp read
      exact record_header Rule.header (fun _ _ _ _ => Rule.step_header) (fun _ _ => Rule.finish_header) found
    | threat =>
      obtain ⟨entry, found, rfl⟩ := Except.map_eq_ok.mp read
      exact record_header ThreatEntry.header (fun _ _ _ _ => ThreatEntry.step_header)
        (fun _ _ => ThreatEntry.finish_header) found

end Envelope

/-! ## The text of a file -/

/-- A text is read for a catalog exactly if it reads as a document whose id is not blank. -/
theorem Catalog.read_eq_ok {text : String} {document : Document} :
    Catalog.read text = .ok document ↔
      Document.ofText text = .ok document ∧ Text.isVacant document.id = false := by
  unfold Catalog.read Document.ofText
  cases Envelope.ofText text with
  | error fault => simp [bind, Except.bind]
  | ok envelope =>
    cases found : envelope.document with
    | error fault => by_cases blank : Text.isVacant envelope.header.id <;> simp [found, blank, bind, Except.bind]
    | ok other =>
      have same : other.id = envelope.header.id := congrArg Header.id (Envelope.document_header found)
      by_cases blank : Text.isVacant envelope.header.id
      · simp only [blank, if_true, found, bind, Except.bind, reduceCtorEq, false_iff, Except.ok.injEq]
        rintro ⟨rfl, filled⟩
        simp [same, blank] at filled
      · simp only [blank, Bool.false_eq_true, if_false, found, bind, Except.bind, Except.ok.injEq, iff_self_and]
        rintro rfl
        simpa [same] using blank

end ThreatModel
