import ThreatModel.Proofs.Document.Record
import ThreatModel.Proofs.Document.Schema

/-!
# The parts of documents

Conditions, cross-references, rules and the documents of threats as records: the parts that each has, and the slots
that hold them.
-/

namespace ThreatModel

/-- How many containers may stand inside one another below a document. -/
def freeDepth : Option Nat := Format.yaml.depth.map (· - 1)

theorem eq_of_getD {α : Type} {slot other : Option α} {default : α} (full : slot.isSome = other.isSome)
    (same : slot.getD default = other.getD default) : slot = other := by
  cases slot <;> cases other <;> simp_all

/-! ## Conditions -/

namespace Condition

theorem Slots.part_ext {slots others : Slots} (same : ∀ form, slots.part form = others.part form) : slots = others := by
  obtain ⟨designs, either, design, binding⟩ := slots
  obtain ⟨_, _, _, _⟩ := others
  cases same .designs
  cases same .either
  cases same .design
  cases same .variableBinding
  rfl

/-- A condition is of one form, which it tells. -/
theorem Slots.join_eq_of_finish {slots others : Slots} {condition : Condition} (finished : slots.finish = .ok condition)
    (again : others.finish = .ok condition) (form : Form) : (slots.slot? form).join = (others.slot? form).join := by
  obtain ⟨one, found⟩ := finish_eq_ok.mp finished
  obtain ⟨other, refound⟩ := finish_eq_ok.mp again
  obtain ⟨held, rest⟩ := found_eq_singleton.mp found
  obtain ⟨holds, others⟩ := found_eq_singleton.mp refound
  have same : one = other := by
    cases one <;> cases other
    all_goals first
      | rfl
      | (simp only [Slots.slot?, Option.join_map_eq_map_join, Option.map_eq_some_iff] at held holds
         obtain ⟨_, -, rfl⟩ := held
         obtain ⟨_, -, made⟩ := holds
         cases made)
  subst same
  by_cases here : form = one
  · rw [here, held, holds]
  · rw [rest form here, others form here]

theorem eq_of_join_map {α β : Type} {slot other : Option (Option α)} {make : α → β}
    (injective : Function.Injective make) (full : slot.isSome = other.isSome)
    (same : (slot.map (·.map make)).join = (other.map (·.map make)).join) : slot = other := by
  cases slot with
  | none => cases other with
    | none => rfl
    | some content => cases full
  | some content => cases other with
    | none => cases full
    | some content => exact congrArg some (Option.map_injective injective same)

/-- The record of a condition. -/
def record (depth : Option Nat) : Record Form Slots Condition where
  name := Form.key
  Content := Form.Content
  read := readPart .yaml depth
  step := stepWithin .yaml depth
  get := Slots.part
  start := {}
  finish := Slots.finish
  passes _ := false
  fills _ _ _ _ stepped := (stepWithin_fills stepped).2
  known _ _ _ _ stepped unknown := by
    obtain ⟨form, named⟩ := mem_keys.mp (stepWithin_fills stepped).1
    exact absurd named.symm (unknown form)
  takes _ _ _ _ vacant read := exists_stepWithin vacant read
  skips _ _ _ _ passed := by cases passed
  vacant form := by cases form <;> rfl
  ext _ _ same := Slots.part_ext same
  tells slots others condition finished again full := by
    have joined := Slots.join_eq_of_finish finished again
    refine Slots.part_ext fun form => ?_
    cases form with
    | designs => exact eq_of_join_map (fun _ _ same => by cases same; rfl) (full .designs) (joined .designs)
    | either => exact eq_of_join_map (fun _ _ same => by cases same; rfl) (full .either) (joined .either)
    | design => exact eq_of_join_map (fun _ _ same => by cases same; rfl) (full .design) (joined .design)
    | variableBinding =>
      exact eq_of_join_map (fun _ _ same => by cases same; rfl) (full .variableBinding) (joined .variableBinding)

end Condition

/-! ## Cross-references -/

namespace Compliance

inductive Part
  | cwe | owasp | stride
  deriving DecidableEq

def Part.name : Part → String
  | cwe => "cwe"
  | owasp => "owasp"
  | stride => "stride"

def Slots.part (slots : Slots) : Part → Option (List String)
  | .cwe => slots.cwe
  | .owasp => slots.owasp
  | .stride => slots.stride

theorem Slots.part_ext {slots others : Slots} (same : ∀ part, slots.part part = others.part part) : slots = others := by
  obtain ⟨cwe, owasp, stride⟩ := slots
  obtain ⟨_, _, _⟩ := others
  cases same .cwe
  cases same .owasp
  cases same .stride
  rfl

theorem step_unknown {slots next : Slots} {field : String} {value : Node}
    (unknown : ∀ part : Part, field ≠ part.name) :
    step slots field value = .ok next ↔ (!value.isCut) = true ∧ next = slots := by
  unfold step
  split
  · exact absurd rfl (unknown .cwe)
  · exact absurd rfl (unknown .owasp)
  · exact absurd rfl (unknown .stride)
  · unfold Node.ignore
    cases value.isCut <;> simp [bind, Except.bind, pure, Except.pure, eq_comm]

theorem step_fills {slots next : Slots} {field : String} {value : Node} (stepped : step slots field value = .ok next)
    (part : Part) : Node.Fills part.name Node.texts field value (slots.part part) (next.part part) := by
  by_cases unknown : ∀ part : Part, field ≠ part.name
  · rw [((step_unknown unknown).mp stepped).2]
    exact .of_ne (unknown part)
  push Not at unknown
  obtain ⟨here, rfl⟩ := unknown
  cases here
  all_goals
    obtain ⟨_, taken, made⟩ := Except.bind_eq_ok.mp stepped
    cases made
    cases part
    all_goals first | exact .of_once taken | exact .of_ne (by decide)

/-- The record of cross-references, which ignores other fields. -/
def record : Record Part Slots Compliance where
  name := Part.name
  Content _ := List String
  read _ := Node.texts
  step := step
  get := Slots.part
  start := {}
  finish := finish
  passes value := !value.isCut
  fills _ _ _ _ stepped part := step_fills stepped part
  known _ _ _ _ stepped unknown := (step_unknown unknown).mp stepped |>.1
  takes slots part value content vacant read := by
    cases part
    all_goals exact ⟨_, Except.bind_eq_ok.mpr ⟨_, Node.once_eq_ok.mpr ⟨vacant, content, read, rfl⟩, rfl⟩⟩
  skips slots _ _ unknown passed := ⟨slots, (step_unknown unknown).mpr ⟨passed, rfl⟩⟩
  vacant part := by cases part <;> rfl
  ext _ _ same := Slots.part_ext same
  tells slots others compliance finished again full := by
    have same := Except.ok.inj (finished.trans again.symm)
    refine Slots.part_ext fun part => ?_
    cases part with
    | cwe => exact eq_of_getD (full .cwe) (congrArg Compliance.cwe same)
    | owasp => exact eq_of_getD (full .owasp) (congrArg Compliance.owasp same)
    | stride => exact eq_of_getD (full .stride) (congrArg Compliance.stride same)

end Compliance

/-! ## Rules -/

namespace Rule

theorem Slots.part_ext {slots others : Slots} (same : ∀ part, slots.part part = others.part part) : slots = others := by
  obtain ⟨apiVersion, kind, header, threat, category, condition⟩ := slots
  obtain ⟨_, _, _, _, _, _⟩ := others
  cases same .apiVersion
  cases same .kind
  cases same .header
  cases same .threat
  cases same .category
  cases Condition.Slots.part_ext fun form => same (.condition form)
  rfl

/-- The record of a rule. -/
def record : Record Part Slots Rule where
  name := Part.name
  Content := Part.Content
  read := Part.read .yaml
  step := step .yaml
  get := Slots.part
  start := {}
  finish := finish
  passes _ := false
  fills _ _ _ _ stepped part := step_part stepped part
  known _ _ _ _ stepped unknown := by
    obtain ⟨part, named⟩ := exists_part_of_mem (mem_keys_of_step stepped)
    exact absurd named (unknown part)
  takes _ _ _ _ vacant read := exists_step vacant read
  skips _ _ _ _ passed := by cases passed
  vacant part := by
    cases part with
    | condition form => cases form <;> rfl
    | _ => rfl
  ext _ _ same := Slots.part_ext same
  tells slots others rule finished again full := by
    obtain ⟨apiVersion, kind, header, threat, category, found⟩ := finish_eq_ok.mp finished
    obtain ⟨apiVersion', kind', header', threat', category', found'⟩ := finish_eq_ok.mp again
    refine Slots.part_ext fun part => ?_
    cases part with
    | apiVersion => exact apiVersion.trans apiVersion'.symm
    | kind => exact kind.trans kind'.symm
    | header => exact header.trans header'.symm
    | threat => exact threat.trans threat'.symm
    | category => exact category.trans category'.symm
    | condition form =>
      have same := (Condition.record freeDepth).tells slots.condition others.condition rule.condition
        (Condition.finish_eq_ok.mpr found) (Condition.finish_eq_ok.mpr found') fun form => full (.condition form)
      exact congrArg (Condition.Slots.part · form) same

end Rule

/-! ## Documents of threats -/

namespace ThreatEntry

inductive Part
  | apiVersion | kind | header | severity | mitigation | compliance
  deriving DecidableEq

namespace Part

def name : Part → String
  | apiVersion => "apiVersion"
  | kind => "kind"
  | header => "metadata"
  | severity => "severity"
  | mitigation => "mitigation"
  | compliance => "compliance"

def Content : Part → Type
  | apiVersion | kind | mitigation => String
  | header => Header
  | severity => Severity
  | compliance => Compliance

def read : (part : Part) → Node → Except Fault part.Content
  | apiVersion | kind | mitigation => Node.text
  | header => Header.ofNode .yaml
  | severity => (·.choice .yaml Severity.ofName?)
  | compliance => Compliance.ofNode .yaml

end Part

def Slots.part (slots : Slots) : (part : Part) → Option part.Content
  | .apiVersion => slots.apiVersion
  | .kind => slots.kind
  | .header => slots.header
  | .severity => slots.severity
  | .mitigation => slots.mitigation
  | .compliance => slots.compliance

theorem Slots.part_ext {slots others : Slots} (same : ∀ part, slots.part part = others.part part) : slots = others := by
  obtain ⟨apiVersion, kind, header, severity, mitigation, compliance⟩ := slots
  obtain ⟨_, _, _, _, _, _⟩ := others
  cases same .apiVersion
  cases same .kind
  cases same .header
  cases same .severity
  cases same .mitigation
  cases same .compliance
  rfl

theorem step_fills {slots next : Slots} {field : String} {value : Node}
    (stepped : step .yaml slots field value = .ok next) (part : Part) :
    Node.Fills part.name part.read field value (slots.part part) (next.part part) := by
  simp only [step] at stepped
  split at stepped
  case h_7 => cases stepped
  all_goals
    obtain ⟨_, taken, made⟩ := Except.bind_eq_ok.mp stepped
    cases made
    cases part
    all_goals first | exact .of_once taken | exact .of_ne (by decide)

theorem exists_part_of_step {slots next : Slots} {field : String} {value : Node}
    (stepped : step .yaml slots field value = .ok next) : ∃ part : Part, field = part.name := by
  simp only [step] at stepped
  split at stepped
  case h_7 => cases stepped
  exacts [⟨.apiVersion, rfl⟩, ⟨.kind, rfl⟩, ⟨.header, rfl⟩, ⟨.severity, rfl⟩, ⟨.mitigation, rfl⟩, ⟨.compliance, rfl⟩]

theorem finish_eq_ok {slots : Slots} {entry : ThreatEntry} :
    finish slots = .ok entry ↔
      slots.apiVersion = some entry.apiVersion ∧ slots.kind = some entry.kind ∧ slots.header = some entry.header ∧
      slots.severity = some entry.severity ∧ slots.mitigation.getD "" = entry.mitigation ∧
      slots.compliance.getD {} = entry.compliance := by
  simp only [finish, Except.bind_eq_ok, Node.required_eq_ok]
  constructor
  · rintro ⟨_, apiVersion, _, kind, _, header, _, severity, made⟩
    cases made
    exact ⟨apiVersion, kind, header, severity, rfl, rfl⟩
  · rintro ⟨apiVersion, kind, header, severity, mitigation, compliance⟩
    refine ⟨_, apiVersion, _, kind, _, header, _, severity, ?_⟩
    rw [mitigation, compliance]
    rfl

/-- The record of the document of a threat. -/
def record : Record Part Slots ThreatEntry where
  name := Part.name
  Content := Part.Content
  read := Part.read
  step := step .yaml
  get := Slots.part
  start := {}
  finish := finish
  passes _ := false
  fills _ _ _ _ stepped part := step_fills stepped part
  known _ _ _ _ stepped unknown := by
    obtain ⟨part, named⟩ := exists_part_of_step stepped
    exact absurd named (unknown part)
  takes _ part _ _ vacant read := by cases part <;> exact Node.exists_once vacant read _
  skips _ _ _ _ passed := by cases passed
  vacant part := by cases part <;> rfl
  ext _ _ same := Slots.part_ext same
  tells slots others entry finished again full := by
    obtain ⟨apiVersion, kind, header, severity, mitigation, compliance⟩ := finish_eq_ok.mp finished
    obtain ⟨apiVersion', kind', header', severity', mitigation', compliance'⟩ := finish_eq_ok.mp again
    refine Slots.part_ext fun part => ?_
    cases part with
    | apiVersion => exact apiVersion.trans apiVersion'.symm
    | kind => exact kind.trans kind'.symm
    | header => exact header.trans header'.symm
    | severity => exact severity.trans severity'.symm
    | mitigation => exact eq_of_getD (full .mitigation) (mitigation.trans mitigation'.symm)
    | compliance => exact eq_of_getD (full .compliance) (compliance.trans compliance'.symm)

end ThreatEntry
end ThreatModel
