import ThreatModel.Document
import ThreatModel.Proofs.Document.Form

/-!
# The schema of rules

Main statement: rules and conditions that were written are read again; an object reads as a condition, or as a rule,
exactly if its keys are those of the schema and it has one form alone; and a condition of several forms is told
which ones it has.
-/

namespace ThreatModel

theorem Node.exists_once {σ α : Type} {name : String} {slot : Option α} {read : Except Fault α} {content : α}
    (vacant : slot = none) (found : read = .ok content) (make : Option α → σ) :
    ∃ last, (do return make (← Node.once name slot read)) = Except.ok last :=
  ⟨_, Except.bind_eq_ok.mpr ⟨_, Node.once_eq_ok.mpr ⟨vacant, content, found, rfl⟩, rfl⟩⟩

namespace Rule

def keys : List String :=
  ["apiVersion", "kind", "metadata", "threat", "element", "designs", "either", "design"]

/-- An object has what a rule needs: only keys of rules, each part of the rule under its key, and one form. -/
structure Given (format : Format) (fields : List (String × Json)) (rule : Rule) : Prop where
  known : ∀ field ∈ fields, field.1 ∈ keys
  apiVersion : ("apiVersion", .text rule.apiVersion) ∈ fields
  kind : ("kind", .text rule.kind) ∈ fields
  header : ∃ value, ("metadata", value) ∈ fields ∧ Header.ofNode format value.toNode = .ok rule.header
  threat : ("threat", .text rule.threat) ∈ fields
  category : ∃ value, ("element", value) ∈ fields ∧ value.toNode.choice format Category.ofName? = .ok rule.category
  condition : Condition.OnlyForm format fields rule.condition

variable {format : Format} {fields : List (String × Json)}

/-! ## Parts -/

inductive Part
  | apiVersion | kind | header | threat | category
  | condition (form : Form)
  deriving DecidableEq

namespace Part

def name : Part → String
  | apiVersion => "apiVersion"
  | kind => "kind"
  | header => "metadata"
  | threat => "threat"
  | category => "element"
  | condition form => form.key

def Content : Part → Type
  | apiVersion | kind | threat => String
  | header => Header
  | category => Category
  | condition form => form.Content

/-- Reads a part; a binding is no part that stands alone. -/
def read (format : Format) : (part : Part) → Node → Except Fault part.Content
  | apiVersion | kind | threat => Node.text
  | header => Header.ofNode format
  | category => (·.choice format Category.ofName?)
  | condition .variableBinding => fun _ => .error (.unknownField Form.variableBinding.key)
  | condition form => Condition.readPart format (format.depth.map (· - 1)) form

end Part

def Slots.part (slots : Slots) : (part : Part) → Option part.Content
  | .apiVersion => slots.apiVersion
  | .kind => slots.kind
  | .header => slots.header
  | .threat => slots.threat
  | .category => slots.category
  | .condition form => slots.condition.part form

/-- A field of a form is taken like one of a condition. -/
theorem step_form (form : Form) (alone : form ≠ .variableBinding) (slots : Slots) (value : Node) :
    step format slots form.key value = (do
      return { slots with condition :=
        ← Condition.stepWithin format (format.depth.map (· - 1)) slots.condition form.key value }) := by
  cases form with
  | variableBinding => exact absurd rfl alone
  | _ => rfl

theorem step_part {slots next : Slots} {field : String} {value : Node}
    (stepped : step format slots field value = .ok next) (part : Part) :
    Node.Fills part.name (part.read format) field value (slots.part part) (next.part part) := by
  simp only [step] at stepped
  split at stepped
  -- A field that rules do not have.
  case h_9 => cases stepped
  -- The fields of the forms.
  case h_6 | h_7 | h_8 =>
    obtain ⟨condition, taken, made⟩ := Except.bind_eq_ok.mp stepped
    cases made
    have filled (form : Form) := (Condition.stepWithin_fills taken).2 form
    cases part
    case condition form =>
      cases form with
      | designs => exact filled .designs
      | either => exact filled .either
      | design => exact filled .design
      | variableBinding => exact filled .variableBinding
    all_goals exact .of_ne (by decide)
  all_goals
    obtain ⟨_, taken, made⟩ := Except.bind_eq_ok.mp stepped
    cases made
    cases part
    case condition form =>
      cases form
      all_goals exact .of_ne (by decide)
    all_goals first | exact .of_once taken | exact .of_ne (by decide)

theorem mem_keys_of_step {slots next : Slots} {field : String} {value : Node}
    (stepped : step format slots field value = .ok next) : field ∈ keys := by
  simp only [step] at stepped
  split at stepped
  case h_9 => cases stepped
  all_goals decide

theorem exists_part_of_mem {field : String} (known : field ∈ keys) : ∃ part : Part, field = part.name := by
  simp only [keys, List.mem_cons, List.not_mem_nil, or_false] at known
  rcases known with rfl | rfl | rfl | rfl | rfl | rfl | rfl | rfl
  exacts [⟨.apiVersion, rfl⟩, ⟨.kind, rfl⟩, ⟨.header, rfl⟩, ⟨.threat, rfl⟩, ⟨.category, rfl⟩,
    ⟨.condition .designs, rfl⟩, ⟨.condition .either, rfl⟩, ⟨.condition .design, rfl⟩]

theorem exists_step {slots : Slots} {part : Part} {value : Node} {content : part.Content}
    (vacant : slots.part part = none) (read : part.read format value = .ok content) :
    ∃ next, step format slots part.name value = .ok next := by
  cases part with
  | condition form =>
    have stepped (alone : form ≠ .variableBinding)
        (read : Condition.readPart format (format.depth.map (· - 1)) form value = .ok content) :
        ∃ next, step format slots form.key value = .ok next := by
      obtain ⟨condition, taken⟩ := Condition.exists_stepWithin vacant read
      rw [step_form form alone]
      exact ⟨_, Except.bind_eq_ok.mpr ⟨condition, taken, rfl⟩⟩
    cases form with
    | variableBinding => cases read
    | designs => exact stepped (by decide) read
    | either => exact stepped (by decide) read
    | design => exact stepped (by decide) read
  | _ => exact Node.exists_once vacant read _

/-! ## Slots -/

structure Fills (format : Format) (field : String) (value : Node) (before after : Slots) : Prop where
  known : field ∈ keys
  apiVersion : Node.Fills "apiVersion" Node.text field value before.apiVersion after.apiVersion
  kind : Node.Fills "kind" Node.text field value before.kind after.kind
  header : Node.Fills "metadata" (Header.ofNode format) field value before.header after.header
  threat : Node.Fills "threat" Node.text field value before.threat after.threat
  category : Node.Fills "element" (·.choice format Category.ofName?) field value before.category after.category
  condition : ∀ form, Node.Fills form.key (Condition.readForm format form) field value
    (before.condition.slot? form) (after.condition.slot? form)

theorem step_fills (unbounded : format.depth = none) {slots next : Slots} {field : String} {value : Node}
    (stepped : step format slots field value = .ok next) : Fills format field value slots next := by
  have fills (part : Part) := step_part stepped part
  refine ⟨mem_keys_of_step stepped, fills .apiVersion, fills .kind, fills .header, fills .threat, fills .category,
    fun form => ?_⟩
  rw [Condition.slot?_eq, Condition.slot?_eq, Condition.readForm_eq, ← Option.map_none (f := (· - 1)), ← unbounded]
  cases form with
  | designs => exact (fills (.condition .designs)).map _
  | either => exact (fills (.condition .either)).map _
  | design => exact (fills (.condition .design)).map _
  | variableBinding =>
    have differs : field ≠ Form.variableBinding.key := by
      rintro rfl
      exact absurd (mem_keys_of_step stepped) (by decide)
    have kept := (Node.fills_iff_of_ne differs).mp (fills (.condition .variableBinding))
    exact (Node.fills_iff_of_ne differs).mpr (congrArg (Option.map (Condition.madeOf .variableBinding)) kept)

/-- What the slots of an object hold. -/
structure Held (format : Format) (fields : List (String × Json)) (slots : Slots) : Prop where
  known : ∀ field ∈ fields, field.1 ∈ keys
  apiVersion : Json.Held Node.text "apiVersion" fields slots.apiVersion
  kind : Json.Held Node.text "kind" fields slots.kind
  header : Json.Held (Header.ofNode format) "metadata" fields slots.header
  threat : Json.Held Node.text "threat" fields slots.threat
  category : Json.Held (·.choice format Category.ofName?) "element" fields slots.category
  condition : ∀ form, Json.Held (Condition.readForm format form) form.key fields (slots.condition.slot? form)

theorem held_of_fill (unbounded : format.depth = none) {slots : Slots}
    (run : Json.fill (step format) {} fields = .ok slots) : Held format fields slots where
  known := Json.forall_of_fill (fun _ _ _ _ stepped => (step_fills unbounded stepped).known) run
  apiVersion := Json.held_of_fill _ (fun _ _ _ _ stepped => (step_fills unbounded stepped).apiVersion) rfl run
  kind := Json.held_of_fill _ (fun _ _ _ _ stepped => (step_fills unbounded stepped).kind) rfl run
  header := Json.held_of_fill _ (fun _ _ _ _ stepped => (step_fills unbounded stepped).header) rfl run
  threat := Json.held_of_fill _ (fun _ _ _ _ stepped => (step_fills unbounded stepped).threat) rfl run
  category := Json.held_of_fill _ (fun _ _ _ _ stepped => (step_fills unbounded stepped).category) rfl run
  condition form := Json.held_of_fill (·.condition.slot? form)
    (fun _ _ _ _ stepped => (step_fills unbounded stepped).condition form) (by cases form <;> rfl) run

theorem conditionOf_eq_ok {id : String} {slots : Condition.Slots} {condition : Condition} :
    conditionOf id slots = .ok condition ↔ ∃ form, slots.found = [(form, condition)] := by
  unfold conditionOf
  split <;> simp_all

theorem finish_eq_ok {slots : Slots} {rule : Rule} :
    finish slots = .ok rule ↔
      slots.apiVersion = some rule.apiVersion ∧ slots.kind = some rule.kind ∧ slots.header = some rule.header ∧
      slots.threat = some rule.threat ∧ slots.category = some rule.category ∧
      ∃ form, slots.condition.found = [(form, rule.condition)] := by
  simp only [finish, Except.bind_eq_ok, Node.required_eq_ok, conditionOf_eq_ok]
  constructor
  · rintro ⟨_, apiVersion, _, kind, _, header, _, threat, _, category, _, condition, made⟩
    cases made
    exact ⟨apiVersion, kind, header, threat, category, condition⟩
  · rintro ⟨apiVersion, kind, header, threat, category, condition⟩
    exact ⟨_, apiVersion, _, kind, _, header, _, threat, _, category, _, condition, rfl⟩

/-! ## Objects -/

theorem Held.finish_eq_ok {slots : Slots} (held : Held format fields slots) (nodup : (fields.map Prod.fst).Nodup)
    {rule : Rule} : Rule.finish slots = .ok rule ↔ Given format fields rule := by
  rw [Rule.finish_eq_ok, held.apiVersion.eq_some nodup, held.kind.eq_some nodup, held.header.eq_some nodup,
    held.threat.eq_some nodup, held.category.eq_some nodup, Condition.found_iff_onlyForm held.condition nodup]
  simp only [Json.text_toNode, exists_eq_right]
  exact ⟨fun ⟨apiVersion, kind, header, threat, category, condition⟩ =>
      ⟨held.known, apiVersion, kind, header, threat, category, condition⟩,
    fun given => ⟨given.apiVersion, given.kind, given.header, given.threat, given.category, given.condition⟩⟩

/-- What is taken as a condition is taken as the condition of a rule, unless it is a binding. -/
theorem exists_step_of_form (unbounded : format.depth = none) {slots : Slots} {form : Form} {value : Node}
    {taken : Condition.Slots} (alone : form ≠ .variableBinding)
    (stepped : Condition.step format slots.condition form.key value = .ok taken) :
    ∃ next, step format slots form.key value = .ok next := by
  rw [step_form form alone, unbounded]
  exact ⟨_, Except.bind_eq_ok.mpr ⟨taken, stepped, rfl⟩⟩

theorem Given.exists_slots (unbounded : format.depth = none) (nodup : (fields.map Prod.fst).Nodup) {rule : Rule}
    (given : Given format fields rule) : ∃ slots, Json.fill (step format) {} fields = .ok slots := by
  refine Json.exists_fill fun before field isPrefix next run => ?_
  obtain ⟨name, value⟩ := field
  have held := held_of_fill unbounded run
  have member : (name, value) ∈ fields := isPrefix.subset (by simp)
  have same {other : Json} (there : (name, other) ∈ fields) : value = other := by
    cases List.inj_on_of_nodup_map nodup member there rfl
    rfl
  have known := given.known _ member
  simp only [keys, List.mem_cons, List.not_mem_nil, or_false] at known
  have condition (form : Form) (alone : form ≠ .variableBinding) (key : name = form.key) :
      ∃ last, step format next name value.toNode = .ok last := by
    subst key
    obtain ⟨taken, stepped⟩ := Condition.exists_step_of_typed ((held.condition form).vacant nodup isPrefix)
      (given.condition.typed nodup form value member)
    exact exists_step_of_form unbounded alone stepped
  rcases known with rfl | rfl | rfl | rfl | rfl | rfl | rfl | rfl
  · exact Node.exists_once (held.apiVersion.vacant nodup isPrefix) (Json.text_toNode.mpr (same given.apiVersion)) _
  · exact Node.exists_once (held.kind.vacant nodup isPrefix) (Json.text_toNode.mpr (same given.kind)) _
  · obtain ⟨_, there, read⟩ := given.header
    exact Node.exists_once (held.header.vacant nodup isPrefix) (same there ▸ read) _
  · exact Node.exists_once (held.threat.vacant nodup isPrefix) (Json.text_toNode.mpr (same given.threat)) _
  · obtain ⟨_, there, read⟩ := given.category
    exact Node.exists_once (held.category.vacant nodup isPrefix) (same there ▸ read) _
  · exact condition .designs (by decide) rfl
  · exact condition .either (by decide) rfl
  · exact condition .design (by decide) rfl

theorem ofNode_object_eq_ok (unbounded : format.depth = none) (nodup : (fields.map Prod.fst).Nodup) {rule : Rule} :
    Rule.ofNode format (Json.object fields).toNode = .ok rule ↔ Given format fields rule := by
  rw [Rule.ofNode, Json.record_object, Except.bind_eq_ok]
  constructor
  · rintro ⟨slots, run, finished⟩
    exact ((held_of_fill unbounded run).finish_eq_ok nodup).mp finished
  · intro given
    obtain ⟨slots, run⟩ := given.exists_slots unbounded nodup
    exact ⟨slots, run, ((held_of_fill unbounded run).finish_eq_ok nodup).mpr given⟩

theorem formed_conditionField (format : Format) {condition : Condition}
    (standsAlone : condition.isBinding = false) :
    ∃ form value, conditionField condition = (form.key, value) ∧ form ≠ .variableBinding ∧
      Condition.Formed format form value condition := by
  cases condition with
  | list combinator children =>
    cases combinator with
    | all => exact ⟨.designs, _, rfl, by decide, .designs (Condition.reads_toJsons children)⟩
    | any => exact ⟨.either, _, rfl, by decide, .either (Condition.reads_toJsons children)⟩
  | design expression => exact ⟨.design, _, rfl, by decide, .design expression⟩
  | binding expression => cases standsAlone

/-- A rule that was written is read again, if its condition can stand alone. -/
theorem ofNode_toJson (unbounded : format.depth = none) (rule : Rule)
    (standsAlone : rule.condition.isBinding = false) : Rule.ofNode format rule.toJson.toNode = .ok rule := by
  obtain ⟨form, value, field, alone, formed⟩ := formed_conditionField format standsAlone
  rw [toJson, field]
  refine (ofNode_object_eq_ok unbounded ?nodup).mpr ⟨?known, by simp, by simp,
    ⟨rule.header.toJson, by simp, Header.ofNode_toJson _ _⟩, by simp,
    ⟨.text rule.category.name, by simp, ?category⟩, form, ⟨value, by simp, formed⟩, ?others⟩
  case nodup => cases form <;> simp [Form.key]
  case known => cases form <;> simp_all [Form.key, keys]
  case category => simp [Json.toNode, Node.choice, Node.choice.named, Scalar.ofText, Category.ofName?_name]
  case others =>
    intro other differs content member
    cases other <;> cases form <;> simp_all [Form.key]

/-- Conditions and rules that were written are read again; an object reads as one exactly if its keys are among those
of the schema and one of its forms alone has more than null, which stands for the condition; and a condition of
several forms is a fault that names them. -/
theorem reads_one_form (unbounded : format.depth = none) :
    (∀ condition : Condition, Condition.read format none condition.toJson.toNode = .ok condition) ∧
    (∀ rule : Rule, rule.condition.isBinding = false →
      Rule.ofNode format (Document.rule rule).toJson.toNode = .ok rule) ∧
    ∀ fields : List (String × Json), (fields.map Prod.fst).Nodup →
      (∀ condition, Condition.read format none (Json.object fields).toNode = .ok condition ↔
        (∀ field ∈ fields, field.1 ∈ Condition.keys) ∧ Condition.OnlyForm format fields condition) ∧
      ((∀ field ∈ fields, field.1 ∈ Condition.keys) →
        Condition.Typed format fields → 2 ≤ (Json.forms fields).length →
        Condition.read format none (Json.object fields).toNode = .error (.manyForms (Json.forms fields)) ∧
        (Fault.manyForms (Json.forms fields)).message =
          "node has more than one form: " ++ ", ".intercalate ((Json.forms fields).map Form.key)) ∧
      (∀ rule, Rule.ofNode format (Json.object fields).toNode = .ok rule ↔ Given format fields rule) ∧
      ("variable" ∈ fields.map Prod.fst → ∀ rule, Rule.ofNode format (Json.object fields).toNode ≠ .ok rule) := by
  refine ⟨Condition.read_toJson, ?_, fun fields nodup => ⟨?_, ?_, ?_, ?_⟩⟩
  · intro rule standsAlone
    rw [Document.toJson]
    exact ofNode_toJson unbounded rule standsAlone
  · exact fun condition => Condition.read_object_eq_ok nodup
  · intro known typed several
    exact ⟨Condition.read_object_several nodup known typed several, Fault.message_manyForms _⟩
  · exact fun rule => ofNode_object_eq_ok unbounded nodup
  · intro binding rule read
    obtain ⟨field, member, key⟩ := List.mem_map.mp binding
    have known := ((ofNode_object_eq_ok unbounded nodup).mp read).known field member
    rw [key] at known
    exact absurd known (by decide)

/-- A rule with a binding inside a list inside a list. -/
def sampleRule : Rule :=
  ⟨"v1", "ThreatRule", { id := "r", name := "R", tags := some ["a"] }, "t", .entity,
    .list .any [.list .all [.binding "$.zone = $Z", .design "$Z.trust < 2"], .list .all []]⟩

/-- Two forms beside a null. -/
def twoForms : List (String × Json) :=
  [("variable", .text "$.zone = $Z"), ("designs", .null), ("either", .array [.object [("design", .text "1 == 1")]])]

/-- The rule is read again, one form beside a null is a condition and not a rule, and two forms are named in their
order. -/
theorem reads_one_form_sample :
    Format.held.depth = none ∧
    Rule.ofNode .held (Document.rule sampleRule).toJson.toNode = .ok sampleRule ∧
    (twoForms.map Prod.fst).Nodup ∧
    Condition.read .held none (Json.object twoForms).toNode = .error (.manyForms [.either, .variableBinding]) ∧
    Condition.read .held none (Json.object twoForms.tail).toNode = .ok (.list .any [.design "1 == 1"]) ∧
    ∀ rule, Rule.ofNode .held (Json.object twoForms).toNode ≠ .ok rule := by
  have unbounded : Format.held.depth = none := rfl
  have nodup : (twoForms.map Prod.fst).Nodup := by decide
  have formed : Condition.Formed .held .either (.array [.object [("design", .text "1 == 1")]])
      (.list .any [.design "1 == 1"]) := .either (.cons ((reads_one_form unbounded).1 (.design "1 == 1")) .nil)
  obtain ⟨-, written, objects⟩ := reads_one_form unbounded
  obtain ⟨-, several, -, noRule⟩ := objects twoForms nodup
  obtain ⟨single, -, -, -⟩ := objects twoForms.tail (by decide)
  refine ⟨rfl, written sampleRule rfl, nodup, (several (by decide) ?typed (by decide)).1,
    (single _).mpr ⟨by decide, .either, ⟨_, by simp [twoForms, Form.key], formed⟩, ?others⟩, noRule (by decide)⟩
  case typed =>
    intro form value member
    cases form <;> simp only [twoForms, Form.key, List.mem_cons, Prod.mk.injEq, String.reduceEq, List.not_mem_nil,
      true_and, false_and, or_false, false_or] at member
    case designs => exact .inl member
    case either => exact .inr ⟨_, member ▸ formed⟩
    case variableBinding =>
      subst member
      exact .inr ⟨_, .binding "$.zone = $Z"⟩
  case others =>
    intro other differs value member
    cases other <;> simp [twoForms, Form.key] at member differs
    exact member

end Rule
end ThreatModel
